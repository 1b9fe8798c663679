import ByteListing.CommandLine.Program
import ByteListing.Host.Call
import ByteListing.Proofs.CommandLine.LongFlags

/-! # Ways to ask for a listing

What can be chosen is the same for the program and for a host: whether the first PEM block is
wanted, or all of them, whether the input is hexadecimal text, and a password, where an empty one is
none.  Every choice can be spelled in the arguments of a command line and in the values of a call,
and every spelling of a choice is read as the request for it. -/
set_option autoImplicit false
namespace ByteListing

open CommandLine Host

structure Choice where
  pem : Bool := false
  allPem : Bool := false
  hex : Bool := false
  /-- The password, which is empty if there is none. -/
  password : String := ""

namespace Choice

/-- The request for a choice.  All blocks take precedence over the first. -/
def request (choice : Choice) : Der.Request where
  pem := if choice.allPem then .all else if choice.pem then .first else .off
  password := if choice.password.isEmpty then none else some choice.password
  hex := choice.hex

end Choice

theorem request_of_flags (choice : Choice) :
    (((({} : Der.Request).withPem choice.pem).withAllPem choice.allPem).withHex
      choice.hex).withPassword choice.password = choice.request := by
  obtain ⟨pem, allPem, hex, password⟩ := choice
  cases pem <;> cases allPem <;> rfl

/-! ## Arguments of the program -/

namespace CommandLine.Options

def choice (options : Options) : Choice :=
  ⟨options.pem, options.allPem, options.hex, options.password.getD ""⟩

theorem request_eq_choice_request (options : Options) :
    options.request = options.choice.request := request_of_flags options.choice

def ofChoice (choice : Choice) : Options where
  pem := choice.pem
  allPem := choice.allPem
  hex := choice.hex
  password := some choice.password

end CommandLine.Options

def switchArgument (name : String) (enabled : Bool) : List String :=
  if enabled then ["--" ++ name] else []

def passwordArgument (password : String) : String := "--" ++ "pem-password" ++ "=" ++ password

def Choice.arguments (choice : Choice) : List String :=
  switchArgument "pem" choice.pem ++ (switchArgument "pem-all" choice.allPem ++
    (switchArgument "hex" choice.hex ++ [passwordArgument choice.password]))

namespace CommandLine

section

variable {options changed : Options} {argument : String}

theorem read_normalize_cons (kept : withTwoDashes argument = argument)
    (complete : takesNext argument = false) (proper : argument ≠ "--")
    (known : options.readFlag argument = .ok (changed, none)) (rest : List String) :
    options.read (normalize (argument :: rest)) = changed.read (normalize rest) := by
  have front : normalize (argument :: rest) = argument :: normalize rest := by
    rw [normalize, normalizeWith.eq_def]
    simp only [Wording.plain, proper, kept, complete, if_false, Bool.false_eq_true, id_eq]
  rw [front, Options.read.eq_def]
  simp only [proper, known, if_false]

end

structure Names (name : String) (flag : Flag) : Prop where
  plain : '=' ∉ name.toList
  known : Flag.ofLong? name = some flag
  unlike : Flag.ofLong? ("-" ++ name) = none

namespace Names

variable {name : String} {flag : Flag} (names : Names name flag)
include names

theorem not_mem_dashed : '=' ∉ '-' :: name.toList := by
  simp [names.plain]

theorem withTwoDashes_alone : withTwoDashes ("--" ++ name) = "--" ++ name := by
  have dashed : String.ofList ('-' :: name.toList) = "-" ++ name := by simp
  have spelled : ("--" ++ name).toList = '-' :: '-' :: name.toList := by simp
  rw [withTwoDashes, spelled]
  simp only [cutValue_of_plain names.not_mem_dashed, dashed, names.unlike, Option.isSome_none,
    Bool.false_eq_true, if_false]

theorem withTwoDashes_attached (value : String) :
    withTwoDashes ("--" ++ name ++ "=" ++ value) = "--" ++ name ++ "=" ++ value := by
  have dashed : String.ofList ('-' :: name.toList) = "-" ++ name := by simp
  have spelled : ("--" ++ name ++ "=" ++ value).toList =
      '-' :: ('-' :: name.toList ++ '=' :: value.toList) := by simp
  rw [withTwoDashes, spelled]
  simp only [cutValue_attached names.not_mem_dashed, dashed, names.unlike, Option.isSome_none,
    Bool.false_eq_true, if_false]

end Names

theorem read_switchArgument {options changed : Options} {name : String} {switch : Switch}
    (names : Names name (.switch switch)) (complete : takesNext ("--" ++ name) = false)
    (proper : "--" ++ name ≠ "--") {enabled : Bool} (off : enabled = false → options = changed)
    (on : enabled = true → options.enable switch = .ok changed) (rest : List String) :
    options.read (normalize (switchArgument name enabled ++ rest)) =
      changed.read (normalize rest) := by
  cases enabled with
  | false =>
      obtain rfl := off rfl
      rfl
  | true =>
      have spelled : ("--" ++ name).toList = '-' :: '-' :: name.toList := by simp
      have known : options.readFlag ("--" ++ name) = .ok (changed, none) := by
        rw [Options.readFlag, spelled]
        simp only [Options.readLong, cutValue_of_plain names.plain, String.ofList_toList,
          names.known, on rfl, Except.map]
      exact read_normalize_cons names.withTwoDashes_alone complete proper known rest

theorem read_passwordArgument {options : Options} (first : options.password = none)
    (password : String) :
    options.read (normalize [passwordArgument password]) =
      .ok { options with password := some password } := by
  have names : Names "pem-password" (.setting .password) :=
    ⟨by decide, by decide, by decide⟩
  have spelled : (passwordArgument password).toList =
      '-' :: '-' :: ("pem-password".toList ++ '=' :: password.toList) := by
    simp [passwordArgument]
  have complete : takesNext (passwordArgument password) = false := by
    simp [takesNext, passwordArgument, ← String.toList_inj]
  have proper : passwordArgument password ≠ "--" := by
    simp [passwordArgument, ← String.toList_inj]
  have known : options.readFlag (passwordArgument password) =
      .ok ({ options with password := some password }, none) := by
    rw [Options.readFlag, spelled]
    simp only [Options.readLong, cutValue_attached names.plain, String.ofList_toList, names.known,
      Options.assign, first, Option.isSome_none, Bool.false_eq_true, if_false, Except.map]
  have kept := names.withTwoDashes_attached password
  refine (read_normalize_cons kept complete proper known []).trans ?_
  rw [normalize, normalizeWith, Options.read]

theorem ofArguments_arguments (environment : Option String) (choice : Choice) :
    Options.ofArguments environment choice.arguments = .ok (Options.ofChoice choice) := by
  obtain ⟨pem, allPem, hex, password⟩ := choice
  have pemRead : ∀ rest, ({} : Options).read (normalize (switchArgument "pem" pem ++ rest)) =
      ({ pem } : Options).read (normalize rest) :=
    read_switchArgument ⟨by decide, rfl, by decide⟩ (by decide +kernel) (by decide)
      (by rintro rfl; rfl) (by rintro rfl; rfl)
  have allPemRead : ∀ rest,
      ({ pem } : Options).read (normalize (switchArgument "pem-all" allPem ++ rest)) =
        ({ pem, allPem } : Options).read (normalize rest) :=
    read_switchArgument ⟨by decide, rfl, by decide⟩ (by decide +kernel) (by decide)
      (by rintro rfl; rfl) (by rintro rfl; rfl)
  have hexRead : ∀ rest,
      ({ pem, allPem } : Options).read (normalize (switchArgument "hex" hex ++ rest)) =
        ({ pem, allPem, hex } : Options).read (normalize rest) :=
    read_switchArgument ⟨by decide, rfl, by decide⟩ (by decide +kernel) (by decide)
      (by rintro rfl; rfl) (by rintro rfl; rfl)
  have passwordRead : ({ pem, allPem, hex } : Options).read
      (normalize [passwordArgument password]) =
        .ok { pem, allPem, hex, password := some password } :=
    read_passwordArgument rfl password
  rw [Options.ofArguments, Choice.arguments, pemRead, allPemRead, hexRead, passwordRead]
  rfl

end CommandLine

/-! ## Values of a call -/

namespace Host

/-- What a flag is set to by a value.  One that is left out is not set. -/
inductive GivesFlag : Option Value → Bool → Prop
  | value (enabled : Bool) : GivesFlag (some (.boolean enabled)) enabled
  | null : GivesFlag (some .null) false
  | absent : GivesFlag none false

inductive GivesText : Option Value → String → Prop
  | value (text : String) : GivesText (some (.text text)) text
  | null : GivesText (some .null) ""
  | absent : GivesText none ""

/-- Values that spell a choice, of which those at the end may be left out. -/
structure Gives (values : Arguments) (input : Bytes) (choice : Choice) : Prop where
  count : values.length ≤ 5
  input : values[0]? = some (.bytes input)
  pem : GivesFlag values[1]? choice.pem
  allPem : GivesFlag values[2]? choice.allPem
  password : GivesText values[3]? choice.password
  hex : GivesFlag values[4]? choice.hex

theorem flag_of_gives {values : Arguments} {index : Nat} {enabled : Bool}
    (gives : GivesFlag values[index]? enabled) (name : String) :
    values.flag index name = .ok enabled := by
  rw [Arguments.flag]
  generalize values[index]? = value at gives
  cases gives with
  | value => rfl
  | null => rfl
  | absent => rfl

theorem text?_of_gives {values : Arguments} {index : Nat} {text : String}
    (gives : GivesText values[index]? text) (name : String) :
    ∃ found, values.text? index name = .ok found ∧ found.getD "" = text := by
  rw [Arguments.text?]
  generalize values[index]? = value at gives
  cases gives with
  | value => exact ⟨some text, rfl, rfl⟩
  | null => exact ⟨none, rfl, rfl⟩
  | absent => exact ⟨none, rfl, rfl⟩

section

variable {values : Arguments} {input : Bytes} {choice : Choice} (gives : Gives values input choice)
include gives

theorem request_of_gives : values.request = .ok choice.request := by
  obtain ⟨found, passwordRead, passwordEq⟩ := text?_of_gives gives.password "PEM password"
  rw [Arguments.request, flag_of_gives gives.pem, flag_of_gives gives.allPem,
    flag_of_gives gives.hex, passwordRead, ← request_of_flags, ← passwordEq]
  rfl

/-- Every spelling of a choice is read as the request for it. -/
theorem readCall_of_gives :
    readCall "decodeDer" values = .ok (.decodeDer input choice.request) := by
  have known : Operation.ofName? "decodeDer" = some .decodeDer := by decide
  have several : values ≠ [] := by
    rintro rfl
    cases gives.input
  have counted : values.checkCount [1, 2, 3, 4, 5] "1 to 5" = .ok () := by
    have positive := List.length_pos_iff.mpr several
    have few := gives.count
    have expected : [1, 2, 3, 4, 5].contains values.length = true := by
      rw [List.contains_iff_mem]
      simp only [List.mem_cons, List.not_mem_nil, or_false]
      omega
    rw [Arguments.checkCount, if_pos expected]
  have bytesRead : values.bytes 0 "input bytes" = .ok input := by
    rw [Arguments.bytes, gives.input]
  rw [readCall, known]
  simp only [Arguments.query, counted, bytesRead, request_of_gives gives]
  rfl

end

theorem gives_all (input : Bytes) (choice : Choice) :
    Gives [.bytes input, .boolean choice.pem, .boolean choice.allPem, .text choice.password,
      .boolean choice.hex] input choice where
  count := Nat.le_refl 5
  input := rfl
  pem := .value choice.pem
  allPem := .value choice.allPem
  password := .value choice.password
  hex := .value choice.hex

end Host

/-- Every choice can be spelled in arguments and in values. -/
theorem exists_spelling (environment : Option String) (input : Bytes) (choice : Choice) :
    ∃ arguments options values, Options.ofArguments environment arguments = .ok options ∧
      options.choice = choice ∧ Gives values input choice :=
  ⟨choice.arguments, .ofChoice choice, _, ofArguments_arguments environment choice, rfl,
    gives_all input choice⟩

end ByteListing
