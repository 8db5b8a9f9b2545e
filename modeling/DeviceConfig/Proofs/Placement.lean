/-
Where the parameters of a model stand.

The settings hold an object for each model under the name of the model, and its parameters are in
there.  The way to them is written down as a path, with the name put into it as it stands, and a
path is read by rules of its own: a slash ends a step, a tilde may begin an escape, and a step that
is an index leads into a list as well.  A name is plain if none of these rules touches it.

For a plain name the path leads where the name says, whatever else the settings hold.  For every
other name there are settings that show the difference.
-/
import DeviceConfig.Parameters.Field
import DeviceConfig.Proofs.Paths
import DeviceConfig.Proofs.Reading

namespace DeviceConfig

theorem Json.under?_object_cons (key next : String) (rest : List String) (o : Object) :
    (Json.object o).under? (key :: next :: rest) =
      (Object.object? o key).bind fun members => (Json.object members).under? (next :: rest) := by
  rw [under?_object, Object.object?, Option.bind_assoc]
  refine Option.bind_congr fun v _ => ?_
  rw [under?, Option.bind_assoc]
  rfl

namespace Json.Pointer

/-! ### Steps -/

/-- A step ends at the first slash. -/
theorem cut_append {chars : List Char} (h : '/' ∉ chars) (rest : List Char) :
    cut (chars ++ '/' :: rest) = chars :: cut rest := by
  induction chars with
  | nil => rfl
  | cons c chars ih =>
      obtain ⟨hc, hchars⟩ := List.ne_and_not_mem_of_not_mem_cons h
      rw [List.cons_append, cut, if_neg (Ne.symm hc), ih hchars]

/-- Escapes are longer than what they stand for. -/
theorem length_unescape_le (chars : List Char) : (unescape chars).length ≤ chars.length := by
  fun_induction unescape chars with
  | case1 rest ih => simp only [List.length_cons]; omega
  | case2 rest ih => simp only [List.length_cons]; omega
  | case3 c rest _ _ ih => simp only [List.length_cons]; omega
  | case4 => exact Nat.le_refl _

theorem follow?_cons (step : List Char) (steps : List (List Char)) (v : Json) :
    follow? (step :: steps) v = (enter? step v).bind (follow? steps) :=
  List.foldlM_cons

/-- A step that is no index only leads into objects. -/
theorem enter?_of_index?_none {step : List Char} (h : index? step = none) (v : Json) :
    enter? step v = v.object?.bind fun o => Object.field? o (String.ofList step) := by
  cases v with
  | array items => rw [enter?, h]; rfl
  | _ => rfl

/-- Steps none of which is an index follow their keys. -/
theorem follow?_keys {keys : List String} (h : ∀ key ∈ keys, index? key.toList = none)
    (v : Json) : follow? (keys.map String.toList) v = v.under? keys := by
  induction keys generalizing v with
  | nil => rfl
  | cons key keys ih =>
      obtain ⟨hkey, hkeys⟩ := List.forall_mem_cons.mp h
      rw [List.map_cons, follow?_cons, enter?_of_index?_none hkey, String.ofList_toList,
        Json.under?]
      exact Option.bind_congr fun w _ => ih hkeys w

end Json.Pointer

namespace Parameters

open Json (Pointer.cut Pointer.unescape Pointer.index? Pointer.enter? Pointer.follow?)

variable {α : Type}

/-! ### Plain names -/

/-- A name that a path takes as one key and nothing else. -/
structure Plain (name : String) : Prop where
  whole : '/' ∉ name.toList
  bare : Pointer.unescape name.toList = name.toList
  key : Pointer.index? name.toList = none

/-- The settings have parameters under the name of a model. -/
def Named (settings : Object) (name : String) (parameters : Object) : Prop :=
  ∃ models, Object.object? settings "ai_models" = some models ∧
    ∃ model, Object.object? models name = some model ∧
      Object.object? model "parameters" = some parameters

/-- The steps of a path to the parameters of a model. -/
theorem at?_path (name : String) (v : Json) :
    v.at? (path name) = Pointer.follow? ("ai_models".toList ::
      (Pointer.cut (name.toList ++ "/parameters".toList)).map Pointer.unescape) v := by
  have hchars : (path name).toList =
      '/' :: ("ai_models".toList ++ '/' :: (name.toList ++ "/parameters".toList)) := by
    simp only [path, String.toList_append, toString, List.append_assoc]
    rfl
  have hcut : Pointer.cut ("ai_models".toList ++ '/' :: (name.toList ++ "/parameters".toList)) =
      "ai_models".toList :: Pointer.cut (name.toList ++ "/parameters".toList) :=
    Json.Pointer.cut_append (by decide) _
  rw [Json.at?, hchars]
  show Pointer.follow? ((Pointer.cut _).map Pointer.unescape) v = _
  rw [hcut, List.map_cons]
  rfl

theorem cut_path {name : String} (h : '/' ∉ name.toList) :
    (Pointer.cut (name.toList ++ "/parameters".toList)).map Pointer.unescape =
      [Pointer.unescape name.toList, "parameters".toList] := by
  have hends := Json.Pointer.cut_append h "parameters".toList
  have hlast : Pointer.cut "parameters".toList = ["parameters".toList] := by decide
  show (Pointer.cut (name.toList ++ '/' :: "parameters".toList)).map _ = _
  rw [hends, hlast]
  rfl

/-- The steps to the parameters of a model whose name is plain are three keys. -/
theorem at?_path_of_plain {name : String} (h : Plain name) (v : Json) :
    v.at? (path name) = v.under? ["ai_models", name, "parameters"] := by
  rw [at?_path, cut_path h.whole, h.bare]
  have hkeys : ∀ key ∈ ["ai_models", name, "parameters"],
      Pointer.index? key.toList = none := by
    intro key hkey
    rcases List.mem_cons.mp hkey with rfl | hkey
    · decide
    · rcases List.mem_cons.mp hkey with rfl | hkey
      · exact h.key
      · obtain rfl := List.mem_singleton.mp hkey
        decide
  exact Json.Pointer.follow?_keys hkeys v

/-- Under a plain name the parameters are found where the name says. -/
theorem find?_of_plain {name : String} (h : Plain name) {settings parameters : Object} :
    find? name (.object settings) = some parameters ↔ Named settings name parameters := by
  rw [find?, at?_path_of_plain h, Json.under?_object_cons, Option.bind_assoc,
    Option.bind_eq_some_iff]
  refine exists_congr fun models => and_congr_right fun _ => ?_
  rw [Json.under?_object_cons, Option.bind_assoc, Option.bind_eq_some_iff]
  refine exists_congr fun model => and_congr_right fun _ => ?_
  rw [Json.under?_object, Option.bind_assoc]
  rfl

/-! ### Names that are not plain -/

/-- A model whose parameters are there, and empty. -/
def emptyModel : Json := .object [("parameters", .object [])]

/-- Settings with nothing but one such model. -/
def settingsOf (name : String) : Object := [("ai_models", .object [(name, emptyModel)])]

/-- Settings in which such models stand in a list. -/
def settingsOfList (count : Nat) : Object :=
  [("ai_models", .array (List.replicate count emptyModel))]

theorem named_settingsOf (name : String) : Named (settingsOf name) name [] := by
  refine ⟨[(name, emptyModel)], rfl, [("parameters", .object [])], ?_, rfl⟩
  rw [Object.object?, Object.field?_cons, if_pos rfl]
  rfl

theorem not_named_settingsOfList (count : Nat) (name : String) (parameters : Object) :
    ¬ Named (settingsOfList count) name parameters := by
  rintro ⟨models, hmodels, -⟩
  cases hmodels

/-- The model is looked for under the first step of its name, and another key is not its own. -/
theorem find?_settingsOf {name : String} {step rest : List Char} (hstep : '/' ∉ step)
    (hname : name.toList ++ "/parameters".toList = step ++ '/' :: rest)
    (hother : Pointer.unescape step ≠ name.toList) :
    find? name (.object (settingsOf name)) = none := by
  have hkey : String.ofList (Pointer.unescape step) ≠ name := by
    intro h
    rw [← h, String.toList_ofList] at hother
    exact hother rfl
  have hmodels : Pointer.enter? "ai_models".toList (.object (settingsOf name)) =
      some (.object [(name, emptyModel)]) := rfl
  have hmodel : Pointer.enter? (Pointer.unescape step) (.object [(name, emptyModel)]) = none := by
    rw [Pointer.enter?, Object.field?_cons, if_neg hkey]
    rfl
  rw [find?, at?_path, hname, Json.Pointer.cut_append hstep, List.map_cons,
    Json.Pointer.follow?_cons, hmodels, Option.bind_some, Json.Pointer.follow?_cons, hmodel]
  rfl

/-- A name that is an index leads into a list. -/
theorem find?_settingsOfList {name : String} {i : Nat} (hwhole : '/' ∉ name.toList)
    (hbare : Pointer.unescape name.toList = name.toList)
    (hindex : Pointer.index? name.toList = some i) :
    find? name (.object (settingsOfList (i + 1))) = some [] := by
  have hmodels : Pointer.enter? "ai_models".toList (.object (settingsOfList (i + 1))) =
      some (.array (List.replicate (i + 1) emptyModel)) := rfl
  have hmodel : Pointer.enter? name.toList (.array (List.replicate (i + 1) emptyModel)) =
      some emptyModel := by
    rw [Pointer.enter?, hindex, Option.bind_some]
    exact List.getElem?_replicate_of_lt (Nat.lt_succ_self i)
  have hparameters : Pointer.follow? ["parameters".toList] emptyModel = some (.object []) := by
    rw [Json.Pointer.follow?_cons]
    rfl
  rw [find?, at?_path, cut_path hwhole, hbare, Json.Pointer.follow?_cons, hmodels,
    Option.bind_some, Json.Pointer.follow?_cons, hmodel, Option.bind_some, hparameters]
  rfl

/-- A name is plain if its parameters are found where it says, and never in a list. -/
theorem plain_of_find? {name : String} (hfound : find? name (.object (settingsOf name)) ≠ none)
    (hlost : ∀ count, find? name (.object (settingsOfList count)) = none) : Plain name := by
  have hwhole : '/' ∉ name.toList := by
    intro hslash
    obtain ⟨step, rest, hname, hstep⟩ := List.eq_append_cons_of_mem hslash
    have hpath : name.toList ++ "/parameters".toList =
        step ++ '/' :: (rest ++ "/parameters".toList) := by
      rw [hname, List.append_assoc, List.cons_append]
    refine hfound (find?_settingsOf hstep hpath fun heq => ?_)
    -- Unescaping does not lengthen a step, and the step is shorter than the name.
    have hle := Json.Pointer.length_unescape_le step
    have hlt := congrArg List.length hname
    rw [heq] at hle
    rw [List.length_append, List.length_cons] at hlt
    omega
  have hbare : Pointer.unescape name.toList = name.toList :=
    Classical.byContradiction fun hother => hfound (find?_settingsOf hwhole rfl hother)
  refine ⟨hwhole, hbare, ?_⟩
  cases hindex : Pointer.index? name.toList with
  | none => rfl
  | some i =>
      have hfirst := find?_settingsOfList hwhole hbare hindex
      rw [hlost] at hfirst
      cases hfirst

theorem ofText?_settingsOf (name : String) :
    Json.ofText? (Json.object (settingsOf name)).text = some (.object (settingsOf name)) := by
  have hdoubles : (Json.object (settingsOf name)).doubles = [] := by
    simp [settingsOf, emptyModel, Json.doubles, Json.doublesOfMembers]
  have hlegible : (Json.object (settingsOf name)).Legible 4 := by
    simp [settingsOf, emptyModel, Json.legible_object, Object.Ascending]
  exact Json.ofText?_text_of_doubles_nil (hlegible.mono (by decide)) hdoubles

theorem ofText?_settingsOfList (count : Nat) :
    Json.ofText? (Json.object (settingsOfList count)).text =
      some (.object (settingsOfList count)) := by
  have hmodels : Json.doublesOfItems (List.replicate count emptyModel) = [] := by
    induction count with
    | zero => rfl
    | succ count ih =>
        rw [List.replicate_succ, Json.doublesOfItems, ih]
        rfl
  have hdoubles : (Json.object (settingsOfList count)).doubles = [] := by
    simp [settingsOfList, Json.doubles, Json.doublesOfMembers, hmodels]
  have hlegible : (Json.object (settingsOfList count)).Legible 4 := by
    simp [settingsOfList, emptyModel, Json.legible_object, Json.legible_array, Object.Ascending]
  exact Json.ofText?_text_of_doubles_nil (hlegible.mono (by decide)) hdoubles

/-! ### What is read -/

/-- Without parameters of its model in them, settings are rejected. -/
theorem configure_of_missing {p : Parameters α} {text : String} {settings : Json}
    (htext : Json.ofText? text = some settings) (h : find? p.model settings = none) :
    p.configure text =
      p.reject (requestId settings) "Error accessing AI model parameters in JSON object" := by
  rw [configure, htext]
  show p.configureWith settings = _
  rw [configureWith, h]

/-- On the parameters of its model the extractors are run. -/
theorem configure_of_found {p : Parameters α} {text : String} {settings : Json}
    (htext : Json.ofText? text = some settings) {parameters : Object}
    (h : find? p.model settings = some parameters) :
    p.configure text = match run parameters p.extractors p.value with
      | .ok value => (.ok (), { p with value, lastError := none })
      | .error message => p.reject (requestId settings) message := by
  rw [configure, htext]
  show p.configureWith settings = _
  simp only [configureWith, h]
  cases run parameters p.extractors p.value <;> rfl

/-- **Parameters are read from under the name of their model exactly where that name is plain.**
If it is, then settings are taken or rejected by what stands under `ai_models`, the name and
`parameters`: the extractors run on the object that stands there, and without one the settings are
rejected, with the id of their request.  If it is not, then this fails for some settings. -/
theorem plain_iff_configure (name : String) :
    Plain name ↔ ∀ (α : Type) (p : Parameters α), p.model = name → ∀ text settings,
      Json.ofText? text = some (.object settings) →
        (∀ parameters, Named settings name parameters →
          p.configure text = match run parameters p.extractors p.value with
            | .ok value => (.ok (), { p with value, lastError := none })
            | .error message => p.reject (requestId (.object settings)) message) ∧
        ((¬ ∃ parameters, Named settings name parameters) →
          p.configure text = p.reject (requestId (.object settings))
            "Error accessing AI model parameters in JSON object") := by
  constructor
  · rintro h α p rfl text settings htext
    refine ⟨fun parameters hnamed => ?_, fun hnone => ?_⟩
    · exact configure_of_found htext ((find?_of_plain h).mpr hnamed)
    · refine configure_of_missing htext (Option.eq_none_iff_forall_ne_some.mpr ?_)
      exact fun parameters hfound => hnone ⟨parameters, (find?_of_plain h).mp hfound⟩
  · intro h
    -- Parameters without extractors are accepted wherever they are found.
    let p : Parameters Unit := ⟨name, [], (), none⟩
    have hfound : find? name (.object (settingsOf name)) ≠ none := by
      intro hnone
      have hnamed := (h Unit p rfl _ _ (ofText?_settingsOf name)).1 [] (named_settingsOf name)
      rw [configure_of_missing (p := p) (ofText?_settingsOf name) hnone] at hnamed
      simp [reject, run, p] at hnamed
    have hlost : ∀ count, find? name (.object (settingsOfList count)) = none := by
      intro count
      have hunnamed := (h Unit p rfl _ _ (ofText?_settingsOfList count)).2
        fun ⟨parameters, hnamed⟩ => not_named_settingsOfList count name parameters hnamed
      refine Option.eq_none_iff_forall_ne_some.mpr fun parameters hsome => ?_
      rw [configure_of_found (p := p) (ofText?_settingsOfList count) hsome] at hunnamed
      simp [reject, run, p] at hunnamed
    exact plain_of_find? hfound hlost

example : Plain "detection" := ⟨by decide, by decide, by decide⟩

/-- A name with a slash in it is not plain, and its parameters are not found. -/
theorem configure_of_slash :
    let parameters : Object := [("n", .word 1)]
    let settings : Object :=
      [("ai_models", .object [("a/b", .object [("parameters", .object parameters)])])]
    let p : Parameters Object := ⟨"a/b", [Extractor.long "n"], [], none⟩
    Json.ofText? (Json.object settings).text = some (.object settings) ∧
      Named settings "a/b" parameters ∧
      (run parameters p.extractors p.value).isOk = true ∧
      (p.configure (Json.object settings).text).1 = .error (.configure .invalidArgument
        "Error accessing AI model parameters in JSON object") := by
  intro parameters settings p
  refine ⟨?_, ⟨_, rfl, _, rfl, rfl⟩, by decide +kernel, by decide +kernel⟩
  have hlegible : (Json.object settings).Legible 4 := by
    simp [settings, parameters, Json.word, Json.legible_object, Object.Ascending]
  exact Json.ofText?_text_of_doubles_nil (hlegible.mono (by decide)) rfl

end Parameters

end DeviceConfig
