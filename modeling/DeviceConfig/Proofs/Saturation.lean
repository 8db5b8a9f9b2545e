/-
Numbers that are cut down to words.

Many fields are unsigned words, and what a candidate has for them is a number that is cut down to
one.  The cut turns every negative number into zero, and nobody would notice: so the rules are there
to keep negative numbers out.  Here the places where a number is cut down are listed, and each of
them is looked up in the rules that a check applies there.

A scalar or a field of a structured property belongs to the list if only the word of a number
matters for it.  That leaves out those in single precision, which may be negative.

There is one place without a limit.  The codec format has to be a number, and that is all, so a
negative format is taken for zero.
-/
import DeviceConfig.Proofs.Domain
import DeviceConfig.Proofs.Reading
import DeviceConfig.Proofs.Values

namespace DeviceConfig

variable {α : Type}

/-! ### Words and numbers -/

namespace Double

/-- The number of a word is not negative. -/
theorem toInt_ofInt_nonneg {n : Nat} (hn : n < Nat.pow 2 53) : 0 ≤ (ofInt n).toInt := by
  rw [toInt_ofInt hn]
  exact Int.mul_nonneg (Int.natCast_nonneg _) (Int.natCast_nonneg _)

/-- The word of a number that is not negative is its integer part, or the greatest word. -/
theorem toWord_of_nonneg {x : Double} (h : 0 ≤ x.toInt) :
    (x.toWord.toNat : Int) = min (x.toInt / unit) 4294967295 := by
  rw [toNat_toWord, max_eq_left h]

end Double

/-- A number that has a lower limit is not negative. -/
theorem Rule.nonneg_of_limited {rules : List Rule} {candidate : Object} {name : String} {x : Double}
    (h : checkAll rules candidate = .ok ()) (hx : Object.double? candidate name = some x)
    {limit : Nat} (hlimit : limit < Nat.pow 2 53)
    (hr : atLeast name (OfNat.ofNat limit) ∈ rules) : 0 ≤ x.toInt := by
  have hholds := holds_of_double? h hx hr
  simp only [Comparison.holds, decide_eq_true_eq] at hholds
  exact Int.le_trans (Double.toInt_ofInt_nonneg hlimit) hholds

/-- A number that has zero for a lower limit is not negative. -/
theorem Rule.nonneg_of_atLeast {rules : List Rule} {candidate : Object} {name : String} {x : Double}
    (h : checkAll rules candidate = .ok ()) (hx : Object.double? candidate name = some x)
    (hr : atLeast name 0 ∈ rules) : 0 ≤ x.toInt :=
  have hzero : 0 < Nat.pow 2 53 := by decide
  nonneg_of_limited h hx hzero hr

/-! ### Fields that are words -/

/-- Only the word of a number matters for a field. -/
def Field.Cuts (f : Field α) : Prop := ∀ x y : Double, x.toWord = y.toWord → f.set x = f.set y

/-- Only the word of a number matters for a scalar. -/
def Scalar.Cuts (s : Scalar) : Prop :=
  ∀ x y : Double, x.toWord = y.toWord → s.property x = s.property y

/-- Single precision tells numbers apart that have the same word. -/
theorem Single.ofDouble_half : Double.toWord 0 = (Double.ofRatio? false 1 2).get!.toWord ∧
    Single.ofDouble 0 ≠ Single.ofDouble (Double.ofRatio? false 1 2).get! := by
  refine ⟨by decide +kernel, fun h => ?_⟩
  exact absurd (congrArg (· == Single.ofDouble 0) h) (by decide +kernel)

theorem Field.not_cuts_single (name : String) {get : α → Single} {put : Single → α → α} (a : α)
    (hput : ∀ x, get (put x a) = x) : ¬ (single name get put).Cuts := by
  intro h
  have hset := congrArg get (congrFun (h _ _ Single.ofDouble_half.1) a)
  rw [set_single, set_single, hput, hput] at hset
  exact Single.ofDouble_half.2 hset

/-- Every field for which only the word matters has a lower limit. -/
theorem Structured.limited_of_cuts (s : Structured) :
    ∀ f ∈ s.description.fields, f.Cuts → f.Limited := by
  intro f hf hcuts
  cases s.numeric f hf with
  | word _ _ _ _ _ hlimited _ _ => exact hlimited
  | single name get put _ hget =>
      exact absurd hcuts (Field.not_cuts_single name s.description.initial fun x => hget x _)

/-- Every scalar for which only the word matters has a lower limit. -/
theorem Scalar.limited_of_cuts {s : Scalar} (h : s.Cuts) : Rule.atLeast s.field 0 ∈ s.rules := by
  have hword := Single.ofDouble_half
  cases s with
  | digitalZoom | evCompensation =>
      have hproperty := h _ _ hword.1
      simp only [property, Property.mk.injEq, heq_eq_eq, true_and] at hproperty
      exact absurd hproperty hword.2
  | exposureMode | antiFlickerMode | imageRotation | whiteBalanceMode =>
      simp [rules, Rule.range]

/-! ### The places -/

/-- A number of a candidate for the common section that is cut down to a word, and its place. -/
inductive Common.CutDown (settings : Object) : List String → Double → Prop
  | own {name : String} {x : Double}
      (hname : name ∈ ["process_state", "log_level", "number_of_inference_per_message"])
      (hx : Object.double? settings name = some x) : CutDown settings [name] x
  | iterations {fragment : Object} {x : Double}
      (hfragment : Object.object? settings "inference_settings" = some fragment)
      (hx : Object.double? fragment "number_of_iterations" = some x) :
      CutDown settings ["inference_settings", "number_of_iterations"] x
  | method {ports port : Object} {name : String} {x : Double}
      (hports : Object.object? settings "port_settings" = some ports)
      (hname : name ∈ ["metadata", "input_tensor"])
      (hport : Object.object? ports name = some port)
      (hx : Object.double? port "method" = some x) :
      CutDown settings ["port_settings", name, "method"] x
  | format {codec : Object} {x : Double}
      (hcodec : Object.object? settings "codec_settings" = some codec)
      (hx : Object.double? codec "format" = some x) :
      CutDown settings ["codec_settings", "format"] x
  | scalar {picture : Object} {s : Scalar} {x : Double}
      (hpicture : Object.object? settings "pq_settings" = some picture)
      (hcuts : s.Cuts) (hx : Object.double? picture s.field = some x) :
      CutDown settings ["pq_settings", s.field] x
  | field {picture value : Object} {s : Structured} {f : Field s.Value} {x : Double}
      (hpicture : Object.object? settings "pq_settings" = some picture)
      (hvalue : Object.object? picture s.field = some value)
      (hf : f ∈ s.description.fields) (hcuts : f.Cuts)
      (hx : Object.double? value f.name = some x) :
      CutDown settings ["pq_settings", s.field, f.name] x
  | entry {picture entry : Object} {entries : List Json} {name : String} {x : Double}
      (hpicture : Object.object? settings "pq_settings" = some picture)
      (hentries : Object.array? picture "register_access" = some entries)
      (hentry : .object entry ∈ entries) (hname : name ∈ ["bit_length", "id"])
      (hx : Object.double? entry name = some x) :
      CutDown settings ["pq_settings", "register_access", name] x

/-- Where the codec format is. -/
def Common.formatPlace : List String := ["codec_settings", "format"]

/-! ### What a check keeps out -/

/-- A common section that passes has no negative number where numbers are cut down, but for the
codec format. -/
theorem Common.nonneg_of_check {a : Common} {settings : Object} (h : a.check settings = .ok ())
    {place : List String} {x : Double} (hx : CutDown settings place x)
    (hplace : place ≠ formatPlace) : 0 ≤ x.toInt := by
  obtain ⟨hrules, hparts⟩ := Check.of_object h
  have hpicturePasses : ∀ {picture : Object},
      Object.object? settings "pq_settings" = some picture → a.picture.check picture = .ok () :=
    fun hpicture => hparts "pq_settings" _ _ (by simp) hpicture
  cases hx with
  | @own name _ hname hx =>
      obtain ⟨limit, hlimit, hrule⟩ : ∃ limit, limit < Nat.pow 2 53 ∧
          Rule.atLeast name (OfNat.ofNat limit) ∈ rules := by
        rcases List.mem_cons.mp hname with rfl | hname
        · exact ⟨1, by decide, by simp [rules, Rule.range]⟩
        rcases List.mem_cons.mp hname with rfl | hname
        · exact ⟨0, by decide, by simp [rules, Rule.range]⟩
        obtain rfl := List.mem_singleton.mp hname
        exact ⟨0, by decide, by simp [rules, Rule.natural]⟩
      exact Rule.nonneg_of_limited hrules hx hlimit hrule
  | iterations hfragment hx =>
      have hpasses : Inference.check _ = .ok () :=
        hparts "inference_settings" _ _ (by simp) hfragment
      exact Rule.nonneg_of_atLeast (Check.of_object hpasses).1 hx (by simp [Rule.natural])
  | @method _ _ name _ hports hname hport hx =>
      have hpasses : a.ports.check _ = .ok () := hparts "port_settings" _ _ (by simp) hports
      obtain ⟨hobject, -⟩ := Verdict.bind_eq_ok.mp hpasses
      have hpart : (name, Port.check) ∈
          [("metadata", Port.check), ("input_tensor", Port.check)] := by
        rcases List.mem_cons.mp hname with rfl | hname
        · exact List.mem_cons_self
        · obtain rfl := List.mem_singleton.mp hname
          exact List.mem_cons_of_mem _ List.mem_cons_self
      have hportPasses : Port.check _ = .ok () := (Check.of_object hobject).2 _ _ _ hpart hport
      exact Rule.nonneg_of_atLeast (Check.of_object hportPasses).1 hx
        (by simp [Port.rules, Rule.natural])
  | format hcodec hx => exact absurd rfl hplace
  | scalar hpicture hcuts hx =>
      have hpasses := (Picture.of_check (hpicturePasses hpicture)).1
      exact Rule.nonneg_of_atLeast hpasses hx
        (Scalar.rules_subset _ (Scalar.limited_of_cuts hcuts))
  | field hpicture hvalue hf hcuts hx =>
      have hpasses := (Picture.of_check (hpicturePasses hpicture)).2.1 _ _ hvalue
      obtain ⟨hfields, -⟩ := Verdict.bind_eq_ok.mp hpasses
      obtain ⟨limit, hlimit, hrule⟩ := Structured.limited_of_cuts _ _ hf hcuts
      exact Rule.nonneg_of_limited hfields hx hlimit (Description.rules_subset _ hf _ hrule)
  | @entry _ _ _ name _ hpicture hentries hentry hname hx =>
      have hpasses := (Picture.of_check (hpicturePasses hpicture)).2.2 _ hentries
      have hentryPasses := (RegisterWrite.of_check hpasses).2 _ hentry
      obtain ⟨hfields, -⟩ := Verdict.bind_eq_ok.mp hentryPasses
      have hrule : Rule.atLeast name 0 ∈ RegisterWrite.rules := by
        rcases List.mem_cons.mp hname with rfl | hname
        · simp [RegisterWrite.rules, Rule.range]
        · obtain rfl := List.mem_singleton.mp hname
          simp [RegisterWrite.rules]
      exact Rule.nonneg_of_atLeast hfields hx hrule

namespace Document

/-- **No negative number is taken for zero, but for a codec format.**  Wherever a number of a
candidate that passes is cut down to a word, the number is not negative, and the word is its integer
part or, beyond that, the greatest word.  The codec format is left out. -/
theorem verify_nonneg (d : Document) {candidate settings : Object}
    (hverify : (d.verify candidate).1 = .ok ())
    (hsettings : Object.object? candidate "common_settings" = some settings)
    {place : List String} {x : Double} (hx : Common.CutDown settings place x)
    (hplace : place ≠ Common.formatPlace) :
    0 ≤ x.toInt ∧ (x.toWord.toNat : Int) = min (x.toInt / Double.unit) 4294967295 := by
  have hnonneg := Common.nonneg_of_check (common_passes hverify hsettings) hx hplace
  exact ⟨hnonneg, Double.toWord_of_nonneg hnonneg⟩

/-- Settings with more inferences in a message than a word can say. -/
def crowded : Object :=
  [("number_of_inference_per_message", .number (.integer 4294967296 (by decide)))]

/-- Such a number passes, and the greatest word is taken for it. -/
theorem verify_nonneg_greatest :
    (({} : Document).verify [("common_settings", .object crowded)]).1 = .ok () ∧
      Common.CutDown crowded ["number_of_inference_per_message"] (Double.ofInt 4294967296) ∧
      ["number_of_inference_per_message"] ≠ Common.formatPlace ∧
      0 ≤ (Double.ofInt 4294967296).toInt ∧
      ((Double.ofInt 4294967296).toWord.toNat : Int) = 4294967295 := by
  have hverify : (({} : Document).verify [("common_settings", .object crowded)]).1 = .ok () := by
    decide +kernel
  have hx : Common.CutDown crowded ["number_of_inference_per_message"]
      (Double.ofInt 4294967296) := .own (by decide) rfl
  obtain ⟨hnonneg, hword⟩ := verify_nonneg {} hverify rfl hx (by decide)
  have hgreatest : min ((Double.ofInt 4294967296).toInt / Double.unit) 4294967295 = 4294967295 := by
    decide +kernel
  exact ⟨hverify, hx, by decide, hnonneg, hword.trans hgreatest⟩

/-- A candidate for a negative codec format. -/
def negativeCandidate : Object :=
  [("common_settings", .object [("codec_settings", .object [("format",
    .number (.integer (-1) (by decide)))])])]

/-- A negative format passes, and zero is stored for it. -/
theorem format_of_negative :
    Json.ofText? (Json.object negativeCandidate).text = some (.object negativeCandidate) ∧
      (({} : Document).verify negativeCandidate).1 = .ok () ∧
      (∃ settings, Object.object? negativeCandidate "common_settings" = some settings ∧
        Common.CutDown settings Common.formatPlace (Double.ofInt (-1)) ∧
        ¬ 0 ≤ (Double.ofInt (-1)).toInt) ∧
      (({} : Document).update .idle (Json.object negativeCandidate).text
        obliging).document.common.codec.format = some 0 := by
  have htext : Json.ofText? (Json.object negativeCandidate).text =
      some (.object negativeCandidate) := by
    have hlegible : (Json.object negativeCandidate).Legible 4 := by
      simp [negativeCandidate, Json.legible_object, Object.Ascending]
    exact Json.ofText?_text_of_doubles_nil (hlegible.mono (by decide)) rfl
  refine ⟨htext, by decide +kernel, ⟨_, rfl, .format rfl rfl, by decide +kernel⟩, ?_⟩
  unfold update
  rw [htext]
  decide +kernel

end Document

end DeviceConfig
