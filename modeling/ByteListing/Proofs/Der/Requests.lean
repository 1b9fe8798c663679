import ByteListing.Der.Request
import ByteListing.Proofs.Pem.Scanning
import Mathlib.Data.List.Induction

/-! # Requests set option by option

A request is put together from settings, each of one option and in any order.  All blocks are wanted
as soon as any setting asks for them, and else the first block as soon as any setting asks for it,
whatever is set later; of the other options the last setting counts.  So a request depends on the
settings of each option in their order and on nothing else (`ofSettings_congr`).

What a request makes of an input is decided in a fixed order too: a password without blocks is
refused before anything is read, and blocks take precedence over digits (`Prepares`). -/
set_option autoImplicit false
namespace ByteListing.Der

/-! ## Settings -/

inductive Setting where
  | pem (enabled : Bool)
  | allPem (enabled : Bool)
  | hex (enabled : Bool)
  | password (text : String)
deriving Repr, DecidableEq

namespace Setting

inductive Name where
  | pem
  | allPem
  | hex
  | password
deriving Repr, DecidableEq

def name : Setting → Name
  | pem _ => .pem
  | allPem _ => .allPem
  | hex _ => .hex
  | password _ => .password

def hex? : Setting → Option Bool
  | hex enabled => some enabled
  | _ => none

def password? : Setting → Option String
  | password text => some text
  | _ => none

def apply (request : Request) : Setting → Request
  | pem enabled => request.withPem enabled
  | allPem enabled => request.withAllPem enabled
  | hex enabled => request.withHex enabled
  | password text => request.withPassword text

end Setting

namespace Request

/-! ## One setting -/

section

variable (request : Request) (enabled : Bool) (text : String)

@[simp] theorem hex_withPem : (request.withPem enabled).hex = request.hex := by
  rw [withPem]
  split <;> rfl

@[simp] theorem password_withPem : (request.withPem enabled).password = request.password := by
  rw [withPem]
  split <;> rfl

@[simp] theorem pem_withAllPem :
    (request.withAllPem enabled).pem = if enabled then .all else request.pem := by
  cases enabled <;> rfl

@[simp] theorem hex_withAllPem : (request.withAllPem enabled).hex = request.hex := by
  cases enabled <;> rfl

@[simp] theorem password_withAllPem :
    (request.withAllPem enabled).password = request.password := by
  cases enabled <;> rfl

@[simp] theorem withPem_false : request.withPem false = request := rfl

@[simp] theorem withAllPem_false : request.withAllPem false = request := rfl

end

/-! ## Settings one after the other -/

def ofSettings (settings : List Setting) : Request := settings.foldl Setting.apply {}

theorem ofSettings_concat (settings : List Setting) (last : Setting) :
    ofSettings (settings ++ [last]) = last.apply (ofSettings settings) := by
  rw [ofSettings, List.foldl_append]
  rfl

theorem pem_ofSettings (settings : List Setting) :
    (ofSettings settings).pem =
      if .allPem true ∈ settings then .all else if .pem true ∈ settings then .first else .off := by
  induction settings using List.reverseRecOn with
  | nil => rfl
  | append_singleton settings last inductionHypothesis =>
      rw [ofSettings_concat]
      cases last with
      | pem enabled =>
          cases enabled with
          | false => simp [Setting.apply, inductionHypothesis]
          | true =>
              by_cases all : .allPem true ∈ settings <;> by_cases first : .pem true ∈ settings <;>
                simp [Setting.apply, withPem, inductionHypothesis, all, first]
      | allPem enabled => cases enabled <;> simp [Setting.apply, inductionHypothesis]
      | hex enabled => simp [Setting.apply, withHex, inductionHypothesis]
      | password text => simp [Setting.apply, withPassword, inductionHypothesis]

theorem hex_ofSettings (settings : List Setting) :
    (ofSettings settings).hex = ((settings.filterMap Setting.hex?).getLast?).getD false := by
  induction settings using List.reverseRecOn with
  | nil => rfl
  | append_singleton settings last inductionHypothesis =>
      rw [ofSettings_concat]
      cases last with
      | hex enabled => simp [Setting.apply, withHex, Setting.hex?]
      | password text => simp [Setting.apply, withPassword, Setting.hex?, inductionHypothesis]
      | _ => simp [Setting.apply, Setting.hex?, inductionHypothesis]

theorem password_ofSettings (settings : List Setting) :
    (ofSettings settings).password =
      (settings.filterMap Setting.password?).getLast?.filter fun text => !text.isEmpty := by
  induction settings using List.reverseRecOn with
  | nil => rfl
  | append_singleton settings last inductionHypothesis =>
      rw [ofSettings_concat]
      cases last with
      | hex enabled => simp [Setting.apply, withHex, Setting.password?, inductionHypothesis]
      | password text =>
          by_cases empty : text.isEmpty <;>
            simp [Setting.apply, withPassword, Setting.password?, Option.filter, empty]
      | _ => simp [Setting.apply, Setting.password?, inductionHypothesis]

/-! ## The order of settings -/

def settingsOf (name : Setting.Name) (settings : List Setting) : List Setting :=
  settings.filter fun setting => setting.name == name

theorem mem_settingsOf_iff {settings : List Setting} {setting : Setting} :
    setting ∈ settingsOf setting.name settings ↔ setting ∈ settings := by
  simp [settingsOf]

theorem filterMap_settingsOf {Value : Type} {value? : Setting → Option Value}
    {name : Setting.Name} (only : ∀ setting : Setting, setting.name ≠ name → value? setting = none)
    (settings : List Setting) :
    (settingsOf name settings).filterMap value? = settings.filterMap value? := by
  have same : (fun setting : Setting => if setting.name == name then value? setting else none) =
      value? := by
    funext setting
    by_cases named : setting.name = name
    · simp [named]
    · simp [named, only setting named]
  rw [settingsOf, List.filterMap_filter, same]

theorem eq_of_options {first second : Request} (pem : first.pem = second.pem)
    (password : first.password = second.password) (hex : first.hex = second.hex) :
    first = second := by
  obtain ⟨_, _, _⟩ := first
  obtain ⟨_, _, _⟩ := second
  cases pem
  cases password
  cases hex
  rfl

theorem ofSettings_congr {first second : List Setting}
    (same : ∀ name, settingsOf name first = settingsOf name second) :
    ofSettings first = ofSettings second := by
  have member (setting : Setting) : setting ∈ first ↔ setting ∈ second := by
    rw [← mem_settingsOf_iff, same, mem_settingsOf_iff]
  have hexOnly (setting : Setting) (other : setting.name ≠ .hex) : setting.hex? = none := by
    cases setting with
    | hex enabled => exact absurd rfl other
    | _ => rfl
  have passwordOnly (setting : Setting) (other : setting.name ≠ .password) :
      setting.password? = none := by
    cases setting with
    | password text => exact absurd rfl other
    | _ => rfl
  have hexSame : first.filterMap Setting.hex? = second.filterMap Setting.hex? := by
    rw [← filterMap_settingsOf hexOnly, same, filterMap_settingsOf hexOnly]
  have passwordSame : first.filterMap Setting.password? = second.filterMap Setting.password? := by
    rw [← filterMap_settingsOf passwordOnly, same, filterMap_settingsOf passwordOnly]
  refine eq_of_options ?_ ?_ ?_
  · simp only [pem_ofSettings, member]
  · rw [password_ofSettings, password_ofSettings, passwordSame]
  · rw [hex_ofSettings, hex_ofSettings, hexSame]

theorem ofSettings_insert {idle : Setting} (unset : idle = .pem false ∨ idle = .allPem false)
    (before after : List Setting) :
    ofSettings (before ++ idle :: after) = ofSettings (before ++ after) := by
  rw [ofSettings, ofSettings, List.foldl_append, List.foldl_append, List.foldl_cons]
  rcases unset with rfl | rfl <;> rfl

end Request

/-! ## What a request gives -/

def Source.withPassword (password : Option String) : Source → Source
  | octets data => octets data
  | block content _ labelled => block content password labelled

/-- What is prepared of an input, for every way to ask.  Blocks are passed on as they were read,
with the password next to them. -/
structure Prepares (request : Request) (input : Bytes) : Prop where
  refused : prepare request input = .error .passwordWithoutPem ↔
    request.pem = .off ∧ request.password ≠ none
  verbatim : request.pem = .off → request.password = none → request.hex = false →
    prepare request input = .ok [.octets input]
  digits : request.pem = .off → request.password = none → request.hex = true →
    (∀ data, HexDump.decode input = .ok data → prepare request input = .ok [.octets data]) ∧
    ∀ flaw, HexDump.decode input = .error flaw →
      prepare request input = .error (.invalidHex (HexDump.describe flaw))
  first : request.pem = .first →
    (prepare request input = .error .noPemBlock ↔ Pem.all input = []) ∧
    ∀ block rest, Pem.all input = block :: rest →
      prepare request input = .ok [.block block request.password false]
  all : request.pem = .all →
    (prepare request input = .error .noPemBlocks ↔ Pem.all input = []) ∧
    (Pem.all input ≠ [] → prepare request input =
      .ok ((Pem.all input).map fun block => .block block request.password true))
  comments : ∀ sources, prepare request input = .ok sources → sources.map Source.comment? =
    if request.pem = .all then (Pem.all input).map fun block => some block.label else [none]
  hexIgnored : request.pem ≠ .off → ∀ hex,
    prepare { request with hex := hex } input = prepare request input
  undecrypted : request.pem ≠ .off → ∀ password,
    prepare { request with password := password } input =
      (prepare request input).map (List.map (Source.withPassword password))

section

variable (password : Option String) (hex : Bool) (input : Bytes)

theorem prepare_first : prepare ⟨.first, password, hex⟩ input =
    match Pem.all input with
    | [] => .error .noPemBlock
    | block :: _ => .ok [.block block password false] := by
  cases found : Pem.first? input with
  | none => simp only [prepare, found, Pem.all_eq_nil_iff.mpr found]
  | some result => simp only [prepare, found, Pem.all_of_first? found]

theorem prepare_all : prepare ⟨.all, password, hex⟩ input =
    if Pem.all input = [] then .error .noPemBlocks
    else .ok ((Pem.all input).map fun block => .block block password true) := by
  cases blocks : Pem.all input with
  | nil => simp only [prepare, blocks, if_true]
  | cons block rest => simp only [prepare, blocks, reduceCtorEq, if_false]

theorem prepares_off : Prepares ⟨.off, password, hex⟩ input := by
  cases password with
  | some text =>
      have refused : prepare ⟨.off, some text, hex⟩ input = .error .passwordWithoutPem := rfl
      constructor <;> simp [refused]
  | none =>
      cases hex with
      | false =>
          have given : prepare ⟨.off, none, false⟩ input = .ok [.octets input] := rfl
          constructor <;> simp [given, Source.comment?]
      | true =>
          have given : prepare ⟨.off, none, true⟩ input =
              (HexDump.orFault (HexDump.decode input)).map fun data => [.octets data] := rfl
          cases decoded : HexDump.decode input with
          | ok data =>
              constructor <;> simp [given, decoded, HexDump.orFault, Except.map, Source.comment?]
          | error flaw => constructor <;> simp [given, decoded, HexDump.orFault, Except.map]

theorem prepares_first : Prepares ⟨.first, password, hex⟩ input := by
  cases blocks : Pem.all input with
  | nil => constructor <;> simp [prepare_first, blocks, Except.map]
  | cons block rest =>
      constructor <;> simp [prepare_first, blocks, Except.map, Source.comment?, Source.withPassword]

theorem prepares_all : Prepares ⟨.all, password, hex⟩ input := by
  by_cases blocks : Pem.all input = []
  · constructor <;> simp [prepare_all, blocks, Except.map]
  · constructor <;> simp [prepare_all, blocks, Except.map, Source.comment?, Source.withPassword]

end

theorem prepares (request : Request) (input : Bytes) : Prepares request input := by
  obtain ⟨pem, password, hex⟩ := request
  cases pem with
  | off => exact prepares_off password hex input
  | first => exact prepares_first password hex input
  | all => exact prepares_all password hex input

/-- All blocks take precedence over the first in whatever order they are asked for, and of digits
and passwords the last setting counts.  Settings of different options may change places, and
settings that want no blocks may be left out.  What is prepared of an input follows from the options
alone. -/
theorem requests_follow_precedence (settings : List Setting) :
    (Request.ofSettings settings).pem =
      (if .allPem true ∈ settings then .all else if .pem true ∈ settings then .first else .off) ∧
    (Request.ofSettings settings).hex = (settings.filterMap Setting.hex?).getLast?.getD false ∧
    (Request.ofSettings settings).password =
      ((settings.filterMap Setting.password?).getLast?.filter fun text => !text.isEmpty) ∧
    (∀ others, (∀ name, Request.settingsOf name others = Request.settingsOf name settings) →
      Request.ofSettings others = Request.ofSettings settings) ∧
    (∀ before after idle, settings = before ++ after → idle = .pem false ∨ idle = .allPem false →
      Request.ofSettings (before ++ idle :: after) = Request.ofSettings settings) ∧
    ∀ input, Prepares (Request.ofSettings settings) input := by
  refine ⟨Request.pem_ofSettings settings, Request.hex_ofSettings settings,
    Request.password_ofSettings settings, ?_, ?_, ?_⟩
  · intro others same
    exact Request.ofSettings_congr same
  · rintro before after idle rfl unset
    exact Request.ofSettings_insert unset before after
  · intro input
    exact prepares (Request.ofSettings settings) input

/-- Settings in which all blocks are wanted before the first, under a password that is set twice. -/
def scatteredSettings : List Setting :=
  [.password "wrong", .allPem true, .hex true, .pem true, .password "secret"]

def nullNote : Bytes :=
  Utf8.encode "-----BEGIN NOTE-----\nBQA=\n-----END NOTE-----\n".toList

/-- The note is prepared under its label and is not decrypted, though it could not be. -/
theorem precedence_of_scattered_settings :
    Request.ofSettings [.hex true, .password "wrong", .password "secret", .pem true, .allPem true] =
      Request.ofSettings scatteredSettings ∧
    Request.ofSettings
        [.password "wrong", .allPem true, .hex true, .allPem false, .pem true, .password "secret"] =
      Request.ofSettings scatteredSettings ∧
    prepare (Request.ofSettings scatteredSettings) nullNote =
      .ok [.block ⟨"NOTE", [], [0x05, 0x00]⟩ (some "secret") true] ∧
    (∃ fault, (Source.block ⟨"NOTE", [], [0x05, 0x00]⟩ (some "secret") true).bytes =
      .error fault) := by
  obtain ⟨-, -, -, reordered, inserted, prepared⟩ := requests_follow_precedence scatteredSettings
  have blocks : Pem.all nullNote = [⟨"NOTE", [], [0x05, 0x00]⟩] := by decide +kernel
  have someBlocks : Pem.all nullNote ≠ [] := by
    rw [blocks]
    nofun
  have given := ((prepared nullNote).all (by decide)).2 someBlocks
  rw [blocks] at given
  exact ⟨reordered _ fun name => by cases name <;> rfl,
    inserted [.password "wrong", .allPem true, .hex true] [.pem true, .password "secret"]
      (.allPem false) rfl (.inr rfl),
    given, ⟨_, rfl⟩⟩

end ByteListing.Der
