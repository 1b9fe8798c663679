import ByteListing.Proofs.Choices
import ByteListing.Proofs.Steps

/-! # The calls that fit an operation

Every operation takes certain numbers and shapes of arguments, whatever is stored.  `Fits` says so
operation by operation, with what each of these calls asks for, and the reader of calls accepts
nothing else (`readCall_eq_ok_iff`).  A call that fits nothing is an argument error. -/
set_option autoImplicit false
namespace ByteListing.Host

/-- The calls that fit an operation, and what they ask for.  Without a schema the name of a message
is not looked at. -/
inductive Fits : (operation : String) → Arguments → Query → Prop
  | createBlob (data : Bytes) : Fits "createBlob" [.bytes data] (.createBlob data)
  | listClasses (handle : Nat) : Fits "listClasses" [.integer handle] (.listClasses handle)
  | listMethods (handle : Nat) (className : String) :
      Fits "listMethods" [.integer handle, .text className] (.listMethods handle className)
  | listInstructions (handle : Nat) (className methodName : String) :
      Fits "listInstructions" [.integer handle, .text className, .text methodName]
        (.listInstructions handle className methodName)
  | decodeDer {values : Arguments} {input : Bytes} {choice : Choice} :
      Gives values input choice → Fits "decodeDer" values (.decodeDer input choice.request)
  | decodePlain (data : Bytes) : Fits "decodeProto" [.bytes data] (.decodeProto data none)
  | decodeUntyped (data : Bytes) (name : Value) :
      Fits "decodeProto" [.bytes data, .null, name] (.decodeProto data none)
  | decodeTyped (data schema : Bytes) (name : String) :
      Fits "decodeProto" [.bytes data, .bytes schema, .text name]
        (.decodeProto data (some ⟨schema, name⟩))

namespace Operation

theorem ofName?_name (operation : Operation) : ofName? operation.name = some operation := by
  cases operation <;> decide +kernel

theorem name_of_ofName? {text : String} {operation : Operation}
    (found : ofName? text = some operation) : text = operation.name := by
  have same := List.find?_some found
  exact (beq_iff_eq.mp same).symm

end Operation

/-! ## Arguments one by one -/

namespace Arguments

variable {values : Arguments} {index : Nat} {name : String}

theorem checkCount_eq_ok_iff {expected : List Nat} {wording : String} :
    values.checkCount expected wording = .ok () ↔ values.length ∈ expected := by
  simp only [checkCount, List.contains_iff_mem]
  split
  · rename_i counted
    exact ⟨fun _ => counted, fun _ => rfl⟩
  · rename_i uncounted
    exact ⟨fun same => (by cases same), fun counted => absurd counted uncounted⟩

theorem bytes_eq_ok_iff {data : Bytes} :
    values.bytes index name = .ok data ↔ values[index]? = some (.bytes data) := by
  rw [bytes]
  split
  · rename_i found
    rw [found]
    exact ⟨fun same => by rw [Except.ok.inj same], fun same => by cases same; rfl⟩
  · rename_i other
    exact ⟨fun same => (by cases same), fun found => absurd found (other data)⟩

theorem text_eq_ok_iff {text : String} :
    values.text index name = .ok text ↔ values[index]? = some (.text text) := by
  rw [Arguments.text]
  split
  · rename_i found
    rw [found]
    exact ⟨fun same => by rw [Except.ok.inj same], fun same => by cases same; rfl⟩
  · rename_i other
    exact ⟨fun same => (by cases same), fun found => absurd found (other text)⟩

theorem handle_eq_ok_iff {handle : Nat} :
    values.handle = .ok handle ↔ values.head? = some (.integer handle) := by
  rw [Arguments.handle]
  split
  · rename_i value found
    rw [found]
    split
    · rename_i positive
      constructor
      · intro same
        obtain rfl := Except.ok.inj same
        rw [Int.toNat_of_nonneg positive]
      · intro same
        cases same
        rfl
    · rename_i negative
      refine ⟨nofun, fun same => absurd ?_ negative⟩
      cases same
      exact Int.natCast_nonneg handle
  · rename_i other
    exact ⟨nofun, fun found => absurd found (other handle)⟩

theorem gives_of_flag {enabled : Bool} (read : values.flag index name = .ok enabled) :
    GivesFlag values[index]? enabled := by
  rw [flag] at read
  split at read
  · rename_i absent
    cases read
    rw [absent]
    exact .absent
  · rename_i null
    cases read
    rw [null]
    exact .null
  · rename_i value found
    cases read
    rw [found]
    exact .value enabled
  · cases read

theorem gives_of_text? {found : Option String} (read : values.text? index name = .ok found) :
    GivesText values[index]? (found.getD "") := by
  rw [text?] at read
  split at read
  · rename_i absent
    cases read
    rw [absent]
    exact .absent
  · rename_i null
    cases read
    rw [null]
    exact .null
  · rename_i value given
    cases read
    rw [given]
    exact .value value
  · cases read

theorem cases_of_bytes? {found : Option Bytes} (read : values.bytes? index name = .ok found) :
    (found = none ∧ (values[index]? = none ∨ values[index]? = some .null)) ∨
      ∃ data, found = some data ∧ values[index]? = some (.bytes data) := by
  rw [bytes?] at read
  split at read
  · rename_i absent
    cases read
    exact .inl ⟨rfl, .inl absent⟩
  · rename_i null
    cases read
    exact .inl ⟨rfl, .inr null⟩
  · rename_i data given
    cases read
    exact .inr ⟨data, rfl, given⟩
  · cases read

end Arguments

/-! ## Whole calls -/

section Fitting

variable {values : Arguments} {query : Query}

theorem gives_of_query (success : values.query .decodeDer = .ok query) :
    ∃ input choice, Gives values input choice ∧ query = .decodeDer input choice.request := by
  obtain ⟨⟨⟩, counted, success⟩ := exists_of_bind_eq_ok success
  obtain ⟨input, inputRead, success⟩ := exists_of_bind_eq_ok success
  obtain ⟨request, requestRead, success⟩ := exists_of_bind_eq_ok success
  obtain ⟨pem, pemRead, requestRead⟩ := exists_of_bind_eq_ok requestRead
  obtain ⟨allPem, allPemRead, requestRead⟩ := exists_of_bind_eq_ok requestRead
  obtain ⟨hex, hexRead, requestRead⟩ := exists_of_bind_eq_ok requestRead
  obtain ⟨password, passwordRead, requestRead⟩ := exists_of_bind_eq_ok requestRead
  have few : values.length ≤ 5 := by
    have listed := Arguments.checkCount_eq_ok_iff.mp counted
    simp only [List.mem_cons, List.not_mem_nil, or_false] at listed
    omega
  refine ⟨input, ⟨pem, allPem, hex, password.getD ""⟩, ?_, ?_⟩
  · exact ⟨few, Arguments.bytes_eq_ok_iff.mp inputRead, Arguments.gives_of_flag pemRead,
      Arguments.gives_of_flag allPemRead, Arguments.gives_of_text? passwordRead,
      Arguments.gives_of_flag hexRead⟩
  · rw [← Except.ok.inj success, ← Except.ok.inj requestRead, ← request_of_flags]

theorem fits_of_proto (success : values.query .decodeProto = .ok query) :
    Fits "decodeProto" values query := by
  obtain ⟨⟨⟩, counted, success⟩ := exists_of_bind_eq_ok success
  obtain ⟨data, dataRead, success⟩ := exists_of_bind_eq_ok success
  obtain ⟨type, typeRead, success⟩ := exists_of_bind_eq_ok success
  obtain ⟨schema, schemaRead, typeRead⟩ := exists_of_bind_eq_ok typeRead
  obtain rfl := Except.ok.inj success
  have first := Arguments.bytes_eq_ok_iff.mp dataRead
  have listed := Arguments.checkCount_eq_ok_iff.mp counted
  simp only [List.mem_cons, List.not_mem_nil, or_false] at listed
  rcases listed with one | three
  · obtain ⟨value, rfl⟩ := List.length_eq_one_iff.mp one
    cases first
    cases schemaRead
    cases typeRead
    exact .decodePlain data
  · obtain ⟨value, second, third, rfl⟩ := List.length_eq_three.mp three
    cases first
    rcases Arguments.cases_of_bytes? schemaRead with ⟨rfl, absent | null⟩ | ⟨octets, rfl, given⟩
    · cases absent
    · cases null
      cases typeRead
      exact .decodeUntyped data third
    · cases given
      obtain ⟨name, nameRead, typeRead⟩ := exists_of_bind_eq_ok typeRead
      cases Arguments.text_eq_ok_iff.mp nameRead
      cases typeRead
      exact .decodeTyped data octets name

theorem fits_of_query {operation : Operation} (success : values.query operation = .ok query) :
    Fits operation.name values query := by
  cases operation with
  | createBlob =>
      obtain ⟨⟨⟩, counted, success⟩ := exists_of_bind_eq_ok success
      obtain ⟨data, dataRead, success⟩ := exists_of_bind_eq_ok success
      obtain ⟨value, rfl⟩ := List.length_eq_one_iff.mp
        (List.mem_singleton.mp (Arguments.checkCount_eq_ok_iff.mp counted))
      cases Arguments.bytes_eq_ok_iff.mp dataRead
      cases success
      exact .createBlob data
  | listClasses =>
      obtain ⟨⟨⟩, counted, success⟩ := exists_of_bind_eq_ok success
      obtain ⟨handle, handleRead, success⟩ := exists_of_bind_eq_ok success
      obtain ⟨value, rfl⟩ := List.length_eq_one_iff.mp
        (List.mem_singleton.mp (Arguments.checkCount_eq_ok_iff.mp counted))
      cases Arguments.handle_eq_ok_iff.mp handleRead
      cases success
      exact .listClasses handle
  | listMethods =>
      obtain ⟨⟨⟩, counted, success⟩ := exists_of_bind_eq_ok success
      obtain ⟨handle, handleRead, success⟩ := exists_of_bind_eq_ok success
      obtain ⟨className, classRead, success⟩ := exists_of_bind_eq_ok success
      obtain ⟨value, second, rfl⟩ := List.length_eq_two.mp
        (List.mem_singleton.mp (Arguments.checkCount_eq_ok_iff.mp counted))
      cases Arguments.handle_eq_ok_iff.mp handleRead
      cases Arguments.text_eq_ok_iff.mp classRead
      cases success
      exact .listMethods handle className
  | listInstructions =>
      obtain ⟨⟨⟩, counted, success⟩ := exists_of_bind_eq_ok success
      obtain ⟨handle, handleRead, success⟩ := exists_of_bind_eq_ok success
      obtain ⟨className, classRead, success⟩ := exists_of_bind_eq_ok success
      obtain ⟨methodName, methodRead, success⟩ := exists_of_bind_eq_ok success
      obtain ⟨value, second, third, rfl⟩ := List.length_eq_three.mp
        (List.mem_singleton.mp (Arguments.checkCount_eq_ok_iff.mp counted))
      cases Arguments.handle_eq_ok_iff.mp handleRead
      cases Arguments.text_eq_ok_iff.mp classRead
      cases Arguments.text_eq_ok_iff.mp methodRead
      cases success
      exact .listInstructions handle className methodName
  | decodeDer =>
      obtain ⟨input, choice, gives, rfl⟩ := gives_of_query success
      exact .decodeDer gives
  | decodeProto => exact fits_of_proto success

/-- A call is accepted as what it fits, and nothing else is accepted. -/
theorem readCall_eq_ok_iff {operation : String} :
    readCall operation values = .ok query ↔ Fits operation values query := by
  constructor
  · intro success
    rw [readCall] at success
    cases found : Operation.ofName? operation with
    | none =>
        rw [found] at success
        cases success
    | some known =>
        rw [found] at success
        cases read : values.query known with
        | error refusal =>
            simp only [read] at success
            cases success
        | ok asked =>
            simp only [read] at success
            cases success
            rw [Operation.name_of_ofName? found]
            exact fits_of_query read
  · intro fits
    cases fits with
    | decodeDer gives => exact readCall_of_gives gives
    | _ => rfl

theorem readCall_of_unfit {operation : String} (unfit : ∀ query, ¬ Fits operation values query) :
    ∃ details, readCall operation values = .error (.invalidArgument operation details) := by
  have refused (query : Query) : readCall operation values ≠ .ok query := fun success =>
    unfit query (readCall_eq_ok_iff.mp success)
  rw [readCall] at refused ⊢
  split
  · rename_i query read
    rw [read] at refused
    exact absurd rfl (refused query)
  · rename_i refusal read
    exact ⟨refusal.describe, rfl⟩

end Fitting

end ByteListing.Host
