import ByteListing.Proofs.CommandLine.LongFlags
import ByteListing.Proofs.Text.Utf8
import ByteListing.Proofs.Text.Utf8Decoding

/-! # One dash or two

Where an argument stands decides whether it is a flag.  `Place` says what is expected of an
argument: the name of the program, a flag, the value of the flag before it, or anything at all
behind the argument that ends the flags.  Normalizing a command line is one pass over it that
carries the place along (`normalizeLine_eq_respellAll`) and gives a long flag its second dash where
a flag is expected.

The second dash changes neither the place of any later argument nor what becomes of it, so that
command lines which differ in dashes alone are normalized alike (`normalizeLine_congr`).

What a system hands over as arguments are octets, and those that are not UTF-8 hold no text. -/
set_option autoImplicit false
namespace ByteListing.CommandLine

/-! ## Places -/

inductive Place where
  | program
  | flag
  | value
  /-- Whatever comes when there are no more flags. -/
  | operand
deriving Repr, DecidableEq

namespace Wording

variable {Argument : Type} (wording : Wording Argument)

@[simp] theorem text?_ofText (text : String) : wording.text? (wording.ofText text) = some text :=
  wording.text?_eq_some_iff.mpr rfl

theorem ofText_injective : Function.Injective wording.ofText := by
  intro text other same
  have read := wording.text?_ofText text
  rw [same, text?_ofText] at read
  exact (Option.some.inj read).symm

def next (place : Place) (argument : Argument) : Place :=
  match place with
  | .program | .value => .flag
  | .operand => .operand
  | .flag =>
    match wording.text? argument with
    | none => .flag
    | some text => if text = "--" then .operand else if text ∈ settings then .value else .flag

def placeAt (words : List Argument) (index : Nat) : Place :=
  (words.take index).foldl wording.next .program

/-- A long flag with two dashes, if a flag is expected, and anything else as it is. -/
def respell (place : Place) (argument : Argument) : Argument :=
  match place, wording.text? argument with
  | .flag, some text => wording.ofText (withTwoDashes text)
  | _, _ => argument

theorem next_of_mem_settings {flag : String} (setting : flag ∈ settings) :
    wording.next .flag (wording.ofText flag) = .value := by
  have goesOn : flag ≠ "--" := by
    rintro rfl
    exact absurd setting (by decide +kernel)
  simp only [next, text?_ofText, if_neg goesOn, if_pos setting]

theorem next_dashes : wording.next .flag (wording.ofText "--") = .operand := by
  simp only [next, text?_ofText, if_true]

def respellAll : Place → List Argument → List Argument
  | _, [] => []
  | place, argument :: rest =>
    wording.respell place argument :: respellAll (wording.next place argument) rest

theorem respell_of_not {place : Place} {argument : Argument}
    (other : ¬ (place = .flag ∧ ∃ long, IsLong long ∧ argument = wording.ofText ("-" ++ long))) :
    wording.respell place argument = argument := by
  cases place with
  | program | value | operand => rfl
  | flag =>
      cases found : wording.text? argument with
      | none => simp only [respell, found]
      | some text =>
          obtain rfl := wording.text?_eq_some_iff.mp found
          have noLong : ¬ ∃ long, IsLong long ∧ text = "-" ++ long := by
            rintro ⟨long, proper, rfl⟩
            exact other ⟨rfl, long, proper, rfl⟩
          simp only [respell, found, withTwoDashes_of_not noLong]

theorem respell_of_ne {place : Place} (other : place ≠ .flag) (argument : Argument) :
    wording.respell place argument = argument :=
  wording.respell_of_not fun long => other long.1

theorem respellAll_operand (arguments : List Argument) :
    wording.respellAll .operand arguments = arguments := by
  induction arguments with
  | nil => rfl
  | cons argument rest inductionHypothesis =>
      rw [respellAll, respell_of_ne wording (by decide), next, inductionHypothesis]

theorem respellAll_value (argument : Argument) (rest : List Argument) :
    wording.respellAll .value (argument :: rest) = argument :: wording.respellAll .flag rest := by
  rw [respellAll, respell_of_ne wording (by decide), next]

theorem normalizeWith_eq_respellAll (arguments : List Argument) :
    normalizeWith wording arguments = wording.respellAll .flag arguments := by
  fun_induction normalizeWith wording arguments with
  | case1 => rfl
  | case2 argument rest noneThere inductionHypothesis =>
      simp only [respellAll, respell, next, noneThere, inductionHypothesis]
  | case3 argument rest found =>
      obtain rfl := wording.text?_eq_some_iff.mp found
      have kept : withTwoDashes "--" = "--" := by decide +kernel
      simp only [respellAll, respell, next, found, kept, if_true, respellAll_operand]
  | case4 argument text found proper takes =>
      have setting := takesNext_withTwoDashes_iff.mp takes
      simp only [respellAll, respell, found]
  | case5 argument text found proper takes value others inductionHypothesis =>
      have setting := takesNext_withTwoDashes_iff.mp takes
      rw [respellAll]
      simp only [respell, next, found, if_neg proper, if_pos setting, respellAll_value,
        inductionHypothesis]
  | case6 argument rest text found proper takes inductionHypothesis =>
      have noSetting : text ∉ settings := fun setting =>
        takes (takesNext_withTwoDashes_iff.mpr setting)
      simp only [respellAll, respell, next, found, if_neg proper, if_neg noSetting,
        inductionHypothesis]

theorem normalizeLine_eq_respellAll (words : List Argument) :
    normalizeLine wording words = wording.respellAll .program words := by
  cases words with
  | nil => rfl
  | cons program arguments =>
      rw [normalizeLine, normalizeWith_eq_respellAll, respellAll,
        respell_of_ne wording (by decide), next]

theorem length_respellAll (place : Place) (arguments : List Argument) :
    (wording.respellAll place arguments).length = arguments.length := by
  induction arguments generalizing place with
  | nil => rfl
  | cons argument rest inductionHypothesis =>
      rw [respellAll, List.length_cons, List.length_cons, inductionHypothesis]

theorem getElem?_respellAll (place : Place) (arguments : List Argument) (index : Nat) :
    (wording.respellAll place arguments)[index]? =
      arguments[index]?.map
        (wording.respell ((arguments.take index).foldl wording.next place)) := by
  induction arguments generalizing place index with
  | nil => rfl
  | cons argument rest inductionHypothesis =>
      rw [respellAll]
      cases index with
      | zero => rfl
      | succ index =>
          rw [List.getElem?_cons_succ, List.getElem?_cons_succ, List.take_succ_cons,
            List.foldl_cons]
          exact inductionHypothesis (wording.next place argument) index

/-! ## The same but for dashes -/

/-- Arguments that may only differ in the dashes of a long flag, where a flag is expected. -/
inductive Alike : Place → Argument → Argument → Prop
  | same (place : Place) (argument : Argument) : Alike place argument argument
  | added {long : String} : IsLong long →
      Alike .flag (wording.ofText ("-" ++ long)) (wording.ofText ("--" ++ long))
  | dropped {long : String} : IsLong long →
      Alike .flag (wording.ofText ("--" ++ long)) (wording.ofText ("-" ++ long))

structure SameButDashes (words other : List Argument) : Prop where
  length : words.length = other.length
  alike : ∀ index argument another, words[index]? = some argument → other[index]? = some another →
    wording.Alike (wording.placeAt words index) argument another

variable {wording}

theorem respell_one {long : String} (proper : IsLong long) :
    wording.respell .flag (wording.ofText ("-" ++ long)) = wording.ofText ("--" ++ long) := by
  simp only [respell, text?_ofText, withTwoDashes_of_isLong proper]

theorem respell_two (long : String) :
    wording.respell .flag (wording.ofText ("--" ++ long)) = wording.ofText ("--" ++ long) := by
  simp only [respell, text?_ofText, withTwoDashes_dashed_twice]

theorem next_one_eq_next_two {long : String} (proper : IsLong long) :
    wording.next .flag (wording.ofText ("-" ++ long)) =
      wording.next .flag (wording.ofText ("--" ++ long)) := by
  obtain ⟨one, two⟩ := mem_settings_iff proper
  have goesOn : "-" ++ long ≠ "--" := by
    intro same
    have dash : long = "-" ++ "" := (@String.append_right_inj "-" long ("-" ++ "")).mp same
    exact not_isLong_dashed "" (dash ▸ proper)
  have goesOnBehindTwo : "--" ++ long ≠ "--" := by
    intro same
    obtain rfl : long = "" := (@String.append_right_inj "--" long "").mp same
    exact absurd proper (by decide +kernel)
  simp only [next, text?_ofText, if_neg goesOn, if_neg goesOnBehindTwo, one, two]

namespace Alike

variable {place : Place} {argument other : Argument} (alike : wording.Alike place argument other)
include alike

theorem next_eq : wording.next place argument = wording.next place other := by
  cases alike with
  | same => rfl
  | added proper => exact next_one_eq_next_two proper
  | dropped proper => exact (next_one_eq_next_two proper).symm

theorem respell_eq : wording.respell place argument = wording.respell place other := by
  cases alike with
  | same => rfl
  | added proper => rw [respell_one proper, respell_two]
  | dropped proper => rw [respell_one proper, respell_two]

end Alike

variable (wording)

theorem alike_respell (place : Place) (argument : Argument) :
    wording.Alike place argument (wording.respell place argument) := by
  by_cases long : place = .flag ∧ ∃ long, IsLong long ∧ argument = wording.ofText ("-" ++ long)
  · obtain ⟨rfl, long, proper, rfl⟩ := long
    rw [respell_one proper]
    exact .added proper
  · rw [respell_of_not wording long]
    exact .same place argument

variable {wording}

theorem respellAll_congr {place : Place} {words other : List Argument}
    (length : words.length = other.length)
    (alike : ∀ index argument another, words[index]? = some argument →
      other[index]? = some another →
      wording.Alike ((words.take index).foldl wording.next place) argument another) :
    wording.respellAll place words = wording.respellAll place other := by
  induction words generalizing place other with
  | nil =>
      obtain rfl := List.length_eq_zero_iff.mp length.symm
      rfl
  | cons argument rest inductionHypothesis =>
      obtain ⟨another, others, rfl⟩ := List.exists_cons_of_length_eq_add_one length.symm
      have here : wording.Alike place argument another := alike 0 _ _ rfl rfl
      have behind := inductionHypothesis (Nat.succ.inj length)
        fun index inner innerOther found otherFound =>
          alike (index + 1) inner innerOther found otherFound
      rw [respellAll, respellAll, here.respell_eq, ← here.next_eq, behind]

/-! ## Whole command lines -/

theorem normalizeLine_congr {words other : List Argument}
    (same : wording.SameButDashes words other) :
    normalizeLine wording words = normalizeLine wording other := by
  rw [normalizeLine_eq_respellAll, normalizeLine_eq_respellAll]
  exact respellAll_congr same.length same.alike

theorem getElem?_normalizeLine (words : List Argument) (index : Nat) :
    (normalizeLine wording words)[index]? =
      words[index]?.map (wording.respell (wording.placeAt words index)) := by
  rw [normalizeLine_eq_respellAll]
  exact getElem?_respellAll wording .program words index

theorem sameButDashes_normalizeLine (words : List Argument) :
    wording.SameButDashes words (normalizeLine wording words) where
  length := by rw [normalizeLine_eq_respellAll, length_respellAll]
  alike index argument another found otherFound := by
    rw [getElem?_normalizeLine, found, Option.map_some] at otherFound
    cases otherFound
    exact alike_respell wording _ argument

theorem placeAt_succ {words : List Argument} {index : Nat} {argument : Argument}
    (found : words[index]? = some argument) :
    wording.placeAt words (index + 1) = wording.next (wording.placeAt words index) argument := by
  rw [placeAt, List.take_add_one, found, List.foldl_append]
  rfl

theorem placeAt_behind_operand {words : List Argument} {index : Nat}
    (place : wording.placeAt words index = .operand) (more : Nat) :
    wording.placeAt words (index + more) = .operand := by
  have stays : ∀ words, List.foldl wording.next .operand words = .operand := by
    intro words
    induction words with
    | nil => rfl
    | cons argument rest inductionHypothesis => exact inductionHypothesis
  rw [placeAt, List.take_add, List.foldl_append]
  rw [placeAt] at place
  rw [place, stays]

theorem getElem?_normalizeLine_of_ne {words : List Argument} {index : Nat}
    (place : wording.placeAt words index ≠ .flag) :
    (normalizeLine wording words)[index]? = words[index]? := by
  have kept : wording.respell (wording.placeAt words index) = id :=
    funext (respell_of_ne wording place)
  rw [getElem?_normalizeLine, kept, Option.map_id_fun, id]

theorem normalizeLine_map (texts : List String) :
    normalizeLine wording (texts.map wording.ofText) =
      (normalizeLine .plain texts).map wording.ofText := by
  have nextText : ∀ place text, wording.next place (wording.ofText text) =
      Wording.plain.next place text := by
    intro place text
    cases place <;> simp [next, Wording.plain]
  have respellText : ∀ place text, wording.respell place (wording.ofText text) =
      wording.ofText (Wording.plain.respell place text) := by
    intro place text
    cases place <;> simp [respell, Wording.plain]
  rw [normalizeLine_eq_respellAll, normalizeLine_eq_respellAll]
  generalize Place.program = place
  induction texts generalizing place with
  | nil => rfl
  | cons text rest inductionHypothesis =>
      rw [List.map_cons, respellAll, respellAll, List.map_cons, respellText, nextText,
        inductionHypothesis]

def octets : Wording Bytes where
  ofText text := Utf8.encode text.toList
  text? argument := (Utf8.decode? argument).map String.ofList
  text?_eq_some_iff := by
    intro argument text
    rw [Option.map_eq_some_iff]
    constructor
    · rintro ⟨decoded, success, rfl⟩
      rw [String.toList_ofList]
      exact (Utf8.encode_of_decode? success).symm
    · rintro rfl
      exact ⟨text.toList, Utf8.decode?_encode text.toList, String.ofList_toList⟩

theorem octets_dashed (text : String) :
    octets.ofText ("-" ++ text) = 0x2D :: octets.ofText text := by
  simp only [octets, String.toList_append]
  rfl

/-- An argument that is given its second dash: a long flag with one, where a flag is expected. -/
def LacksDash (words : List Bytes) (index : Nat) (argument : Bytes) : Prop :=
  octets.placeAt words index = .flag ∧
    ∃ long, IsLong long ∧ argument = octets.ofText ("-" ++ long)

end Wording

open Wording (LacksDash SameButDashes octets)

/-- Normalizing a command line only adds dashes.  All arguments stay where they are, and the long
flags with one dash are given a second one, where a flag is expected and nowhere else: not to the
name of the program, not to the value of a flag, not to anything behind the end of the flags, and
not to what is not UTF-8.  Doing it again changes nothing, command lines that only differ in the
dashes of long flags become the same, and the texts which the program reads are normalized so. -/
theorem normalization_adds_dashes :
    (∀ words : List Bytes, (normalizeLine octets words).length = words.length) ∧
    (∀ (words : List Bytes) (index : Nat) (argument : Bytes), words[index]? = some argument →
      (LacksDash words index argument →
        (normalizeLine octets words)[index]? = some (0x2D :: argument)) ∧
      (¬ LacksDash words index argument →
        (normalizeLine octets words)[index]? = some argument)) ∧
    (∀ words : List Bytes, (normalizeLine octets words)[0]? = words[0]?) ∧
    (∀ (words : List Bytes) (index : Nat), ∀ flag ∈ settings,
      octets.placeAt words index = .flag → words[index]? = some (octets.ofText flag) →
      (normalizeLine octets words)[index + 1]? = words[index + 1]?) ∧
    (∀ (words : List Bytes) (index later : Nat), octets.placeAt words index = .flag →
      words[index]? = some (octets.ofText "--") → index ≤ later →
      (normalizeLine octets words)[later]? = words[later]?) ∧
    (∀ (words : List Bytes) (index : Nat) (argument : Bytes), words[index]? = some argument →
      Utf8.decode? argument = none → (normalizeLine octets words)[index]? = some argument) ∧
    (∀ words : List Bytes,
      normalizeLine octets (normalizeLine octets words) = normalizeLine octets words) ∧
    (∀ words other : List Bytes, octets.SameButDashes words other →
      normalizeLine octets words = normalizeLine octets other) ∧
    ∀ program arguments, normalizeLine octets ((program :: arguments).map octets.ofText) =
      (program :: normalize arguments).map octets.ofText := by
  have kept : ∀ (words : List Bytes) (index : Nat) (argument : Bytes),
      words[index]? = some argument → ¬ LacksDash words index argument →
      (normalizeLine octets words)[index]? = some argument := by
    intro words index argument found other
    rw [Wording.getElem?_normalizeLine, found, Option.map_some,
      Wording.respell_of_not octets other]
  refine ⟨?_, ?_, ?_, ?_, ?_, ?_, ?_, ?_, ?_⟩
  · intro words
    exact (Wording.sameButDashes_normalizeLine words).length.symm
  · intro words index argument found
    refine ⟨?_, kept words index argument found⟩
    rintro ⟨place, long, proper, rfl⟩
    rw [Wording.getElem?_normalizeLine, found, Option.map_some, place,
      Wording.respell_one proper, dashed_twice, Wording.octets_dashed]
  · intro words
    exact Wording.getElem?_normalizeLine_of_ne nofun
  · intro words index flag setting place found
    refine Wording.getElem?_normalizeLine_of_ne ?_
    rw [Wording.placeAt_succ found, place, Wording.next_of_mem_settings octets setting]
    decide
  · intro words index later place found behind
    obtain ⟨more, rfl⟩ := Nat.exists_eq_add_of_le behind
    cases more with
    | zero =>
        have noLong : ¬ LacksDash words index (octets.ofText "--") := by
          rintro ⟨-, long, proper, same⟩
          have dash : "-" ++ "" = long := (@String.append_right_inj "-" ("-" ++ "") long).mp
            (octets.ofText_injective same)
          exact not_isLong_dashed "" (dash ▸ proper)
        rw [Nat.add_zero, found]
        exact kept words index _ found noLong
    | succ more =>
        have ended : octets.placeAt words (index + 1) = .operand := by
          rw [Wording.placeAt_succ found, place, Wording.next_dashes]
        have stays := Wording.placeAt_behind_operand ended more
        refine Wording.getElem?_normalizeLine_of_ne ?_
        rw [← Nat.add_assoc, Nat.add_right_comm, stays]
        decide
  · intro words index argument found noText
    refine kept words index argument found ?_
    rintro ⟨-, long, -, rfl⟩
    have noTextThere : octets.text? (octets.ofText ("-" ++ long)) = none :=
      congrArg (Option.map String.ofList) noText
    rw [Wording.text?_ofText] at noTextThere
    cases noTextThere
  · intro words
    exact (Wording.normalizeLine_congr (Wording.sameButDashes_normalizeLine words)).symm
  · intro words other same
    exact Wording.normalizeLine_congr same
  · intro program arguments
    exact Wording.normalizeLine_map (program :: arguments)

/-- A value that looks like a flag, an argument that is no text, and a flag behind the end of the
flags. -/
def mixedLine : List Bytes :=
  [octets.ofText "list", octets.ofText "-pem-all", octets.ofText "-pem-password",
    octets.ofText "-hex", [0x2D, 0xFF], octets.ofText "-hex", octets.ofText "--",
    octets.ofText "-pem"]

theorem normalization_of_mixedLine :
    (normalizeLine octets mixedLine)[0]? = some (octets.ofText "list") ∧
    (normalizeLine octets mixedLine)[1]? = some (0x2D :: octets.ofText "-pem-all") ∧
    (normalizeLine octets mixedLine)[3]? = some (octets.ofText "-hex") ∧
    (normalizeLine octets mixedLine)[4]? = some [0x2D, 0xFF] ∧
    (normalizeLine octets mixedLine)[7]? = some (octets.ofText "-pem") ∧
    normalizeLine octets [octets.ofText "list", octets.ofText "-hex"] =
      normalizeLine octets [octets.ofText "list", octets.ofText "--hex"] := by
  obtain ⟨-, dashes, -, values, operands, others, -, same, -⟩ := normalization_adds_dashes
  have proper : IsLong "pem-all" := by decide +kernel
  have lacks : LacksDash mixedLine 1 (octets.ofText "-pem-all") :=
    ⟨by decide +kernel, "pem-all", proper, rfl⟩
  refine ⟨?_, ?_, ?_, ?_, ?_, ?_⟩
  · exact (dashes mixedLine 0 _ rfl).2 fun program => Place.noConfusion program.1
  · exact (dashes mixedLine 1 _ rfl).1 lacks
  · exact values mixedLine 2 "-pem-password" (by decide +kernel) (by decide +kernel) rfl
  · exact others mixedLine 4 _ rfl (by decide +kernel)
  · exact operands mixedLine 6 7 (by decide +kernel) rfl (by decide)
  · refine same _ _ ⟨rfl, ?_⟩
    intro index argument another found otherFound
    match index with
    | 0 =>
        cases found
        cases otherFound
        exact .same _ _
    | 1 =>
        cases found
        cases otherFound
        exact .added (by decide +kernel : IsLong "hex")
    | index + 2 => cases found

end ByteListing.CommandLine
