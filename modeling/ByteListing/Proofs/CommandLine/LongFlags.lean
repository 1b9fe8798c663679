import ByteListing.CommandLine.Arguments
import ByteListing.Proofs.Text.Cut

/-! # Long flags

Which texts are long flags but for their dashes (`IsLong`), and which arguments take the one behind
them for their value (`settings`), told without cutting a text in two.  A second dash is given to
exactly the long flags that have one. -/
set_option autoImplicit false
namespace ByteListing.CommandLine

/-- Texts that are long flags but for their dashes, with a value attached or without. -/
def IsLong (text : String) : Prop :=
  ∃ name ∈ Flag.longNames.map Prod.fst, text = name ∨ ∃ value, text = name ++ "=" ++ value

/-- The flags whose value is the next argument, in all their spellings. -/
def settings : List String := ["-i", "-o", "-pem-password", "--pem-password"]

/-! ## Names and values -/

theorem cutValue_of_plain {name : List Char} (plain : '=' ∉ name) :
    cutValue name = (String.ofList name, none) := by
  rw [cutValue, cut?_singleton_eq_none plain]

theorem cutValue_attached {name : List Char} (plain : '=' ∉ name) (value : List Char) :
    cutValue (name ++ '=' :: value) = (String.ofList name, some (String.ofList value)) := by
  rw [cutValue, cut?_singleton plain]

theorem plain_of_mem_longNames : ∀ name ∈ Flag.longNames.map Prod.fst,
    '=' ∉ name.toList ∧ ∃ first rest, name.toList = first :: rest ∧ first ≠ '-' := by
  intro name known
  have plain : ∀ name ∈ Flag.longNames.map Prod.fst, '=' ∉ name.toList ∧ name.toList ≠ [] ∧
      name.toList.head? ≠ some '-' := by simp [Flag.longNames]
  obtain ⟨noMark, occupied, begins⟩ := plain name known
  obtain ⟨first, rest, spelled⟩ := List.exists_cons_of_ne_nil occupied
  rw [spelled, List.head?_cons] at begins
  exact ⟨noMark, first, rest, spelled, fun dash => begins (congrArg some dash)⟩

theorem isSome_ofLong?_iff {name : String} :
    (Flag.ofLong? name).isSome = true ↔ name ∈ Flag.longNames.map Prod.fst := by
  rw [Flag.ofLong?, List.lookup_isSome_iff]
  simp [beq_iff_eq]

theorem isSome_ofLong?_cutValue_iff {text : String} :
    (Flag.ofLong? (cutValue text.toList).1).isSome = true ↔ IsLong text := by
  rw [isSome_ofLong?_iff]
  constructor
  · intro known
    refine ⟨_, known, ?_⟩
    rw [cutValue]
    cases found : cut? ['='] text.toList with
    | none => exact .inl (String.ofList_toList).symm
    | some pieces =>
        obtain ⟨whole, -⟩ := cut?_eq_some_iff.mp found
        refine .inr ⟨String.ofList pieces.2, ?_⟩
        rw [← String.toList_inj, whole]
        simp
  · rintro ⟨name, known, rfl | ⟨value, rfl⟩⟩
    · rwa [cutValue_of_plain (plain_of_mem_longNames _ known).1, String.ofList_toList]
    · have spelled : (name ++ "=" ++ value).toList = name.toList ++ '=' :: value.toList := by simp
      rwa [spelled, cutValue_attached (plain_of_mem_longNames _ known).1, String.ofList_toList]

instance (text : String) : Decidable (IsLong text) :=
  decidable_of_iff _ isSome_ofLong?_cutValue_iff

/-! ## Dashes -/

theorem dashed_twice (text : String) : "--" ++ text = "-" ++ ("-" ++ text) := by
  rw [← String.append_assoc]
  rfl

theorem not_isLong_dashed (text : String) : ¬ IsLong ("-" ++ text) := by
  rintro ⟨name, known, begins⟩
  obtain ⟨-, first, rest, spelled, other⟩ := plain_of_mem_longNames name known
  have same : ∃ behind, ("-" ++ text).toList = name.toList ++ behind := by
    rcases begins with whole | ⟨value, whole⟩
    · exact ⟨[], by rw [whole, List.append_nil]⟩
    · exact ⟨'=' :: value.toList, by rw [whole]; simp⟩
  obtain ⟨behind, same⟩ := same
  rw [spelled, String.toList_append] at same
  exact other (List.cons.inj same).1.symm

theorem withTwoDashes_of_isLong {text : String} (long : IsLong text) :
    withTwoDashes ("-" ++ text) = "--" ++ text := by
  have spelled : ("-" ++ text).toList = '-' :: text.toList := by simp
  rw [withTwoDashes, spelled]
  simp only [isSome_ofLong?_cutValue_iff.mpr long, if_true, dashed_twice]

theorem withTwoDashes_of_not {text : String} (other : ¬ ∃ long, IsLong long ∧ text = "-" ++ long) :
    withTwoDashes text = text := by
  rw [withTwoDashes]
  split
  · rename_i name spelled
    have whole : text = "-" ++ String.ofList name := by
      rw [← String.toList_inj, spelled]
      simp
    have short : ¬ (Flag.ofLong? (cutValue name).1).isSome = true := by
      intro known
      rw [← String.toList_ofList (l := name), isSome_ofLong?_cutValue_iff] at known
      exact other ⟨_, known, whole⟩
    rw [if_neg short]
  · rfl

theorem withTwoDashes_dashed_twice (text : String) :
    withTwoDashes ("--" ++ text) = "--" ++ text := by
  refine withTwoDashes_of_not ?_
  rintro ⟨long, proper, same⟩
  rw [dashed_twice, String.append_right_inj] at same
  exact not_isLong_dashed text (same ▸ proper)

/-! ## Settings -/

theorem dashed_mem_settings_iff {text : String} : "-" ++ text ∈ settings ↔
    text = "i" ∨ text = "o" ∨ text = "pem-password" ∨ text = "-pem-password" := by
  have spelled : settings =
      ["-" ++ "i", "-" ++ "o", "-" ++ "pem-password", "-" ++ "-pem-password"] := rfl
  simp only [spelled, List.mem_cons, String.append_right_inj, List.not_mem_nil, or_false]

theorem mem_settings_iff {long : String} (proper : IsLong long) :
    ("-" ++ long ∈ settings ↔ long = "pem-password") ∧
      ("--" ++ long ∈ settings ↔ long = "pem-password") := by
  constructor
  · have input : ¬ IsLong "i" := by decide +kernel
    have output : ¬ IsLong "o" := by decide +kernel
    have dashes : ¬ IsLong "-pem-password" := not_isLong_dashed "pem-password"
    rw [dashed_mem_settings_iff]
    constructor
    · rintro (rfl | rfl | same | rfl)
      · exact absurd proper input
      · exact absurd proper output
      · exact same
      · exact absurd proper dashes
    · intro same
      exact .inr (.inr (.inl same))
  · have begins : ∀ other : String, other.toList.head? ≠ some '-' → "-" ++ long ≠ other := by
      rintro other different rfl
      exact different (by rw [String.toList_append]; rfl)
    have input := begins "i" (by decide)
    have output := begins "o" (by decide)
    have undashed := begins "pem-password" (by decide)
    have password : "-" ++ long = "-pem-password" ↔ long = "pem-password" := by
      have spelled : "-pem-password" = "-" ++ "pem-password" := rfl
      rw [spelled, String.append_right_inj]
    rw [dashed_twice, dashed_mem_settings_iff]
    simp only [input, output, undashed, password, false_or]

/-- Exactly the arguments in `settings` take the next one, whatever becomes of their dashes. -/
theorem takesNext_withTwoDashes_iff {text : String} :
    takesNext (withTwoDashes text) = true ↔ text ∈ settings := by
  have takes : ∀ other, takesNext other = true ↔ other ∈ settings ∧ other ≠ "-pem-password" := by
    intro other
    simp only [takesNext, Bool.or_eq_true, beq_iff_eq, settings, List.mem_cons, List.not_mem_nil,
      or_false]
    constructor
    · rintro ((rfl | rfl) | rfl) <;> decide
    · rintro ⟨rfl | rfl | same | rfl, different⟩
      · exact .inl (.inl rfl)
      · exact .inl (.inr rfl)
      · exact absurd same different
      · exact .inr rfl
  by_cases long : ∃ long, IsLong long ∧ text = "-" ++ long
  · obtain ⟨long, proper, rfl⟩ := long
    have different : "--" ++ long ≠ "-pem-password" := by
      intro same
      have second := congrArg (fun argument => argument.toList[1]?) same
      simp at second
    rw [withTwoDashes_of_isLong proper, takes, (mem_settings_iff proper).1,
      (mem_settings_iff proper).2]
    exact and_iff_left different
  · have other : text ≠ "-pem-password" := by
      rintro rfl
      exact long ⟨"pem-password", by decide +kernel, rfl⟩
    rw [withTwoDashes_of_not long, takes]
    exact and_iff_left other

end ByteListing.CommandLine
