import ByteListing.Dex.Container
import ByteListing.Proofs.Bytes.Base128
import ByteListing.Proofs.Bytes.Chunks
import ByteListing.Proofs.Steps

/-! # Declared counts

How many fields, methods, parameters or units there are is told by numbers in a container, and a
container may tell any number.  Where as many are read as were told, each of them took octets of its
own: the numbers of a class stand one behind the other (`Numbers`), three for every method, and
parameters and units take two octets each.  So no list that is read is longer than its share of the
container.  The methods of a class are read exactly if its numbers are there
(`classMethods_eq_ok_iff`). -/
set_option autoImplicit false
namespace ByteListing.Dex

/-! ## Octets that are taken -/

section Taken

variable {data : Bytes} {position : Nat}

theorem take_eq_ok_iff {piece : Piece} {length : Nat} {octets : Bytes} :
    take data piece length position = .ok octets ↔
      position + length ≤ data.length ∧ octets = (data.drop position).take length := by
  by_cases bound : position + length ≤ data.length
  · rw [take, Bytes.slice?, if_pos bound]
    simp [bound, eq_comm]
  · rw [take, Bytes.slice?, if_neg bound]
    simp [bound]

theorem bound_of_take {piece : Piece} {length : Nat} {octets : Bytes}
    (taken : take data piece length position = .ok octets) :
    position + length ≤ data.length ∧ octets.length = length := by
  obtain ⟨bound, rfl⟩ := take_eq_ok_iff.mp taken
  refine ⟨bound, ?_⟩
  rw [List.length_take, List.length_drop]
  omega

theorem bound_of_half {value : Nat} (read : half data position = .ok value) :
    position + 2 ≤ data.length := by
  obtain ⟨octets, taken, -⟩ := exists_of_map_eq_ok read
  exact (bound_of_take taken).1

theorem bound_of_word32 {value : Nat} (read : word32 data position = .ok value) :
    position + 4 ≤ data.length ∧ value < 2 ^ 32 := by
  obtain ⟨octets, taken, rfl⟩ := exists_of_map_eq_ok read
  obtain ⟨bound, length⟩ := bound_of_take taken
  have small := Bytes.littleEndian_lt octets
  rw [length] at small
  exact ⟨bound, small⟩

theorem bound_of_varint {number next : Nat} (read : varint data position = .ok (number, next)) :
    number < 2 ^ 32 ∧ position < next ∧ next ≤ data.length := by
  simp only [varint] at read
  split at read
  · rename_i groups remaining splitOff
    obtain ⟨rfl, rfl⟩ := Prod.mk.inj (Except.ok.inj read)
    have positive := Base128.length_pos_of_splitGroups splitOff
    have whole := congrArg List.length (Base128.append_of_splitGroups splitOff)
    rw [List.length_append, List.length_take, List.length_drop] at whole
    exact ⟨Nat.mod_lt _ (by decide), by omega, by omega⟩
  · split at read <;> cases read

end Taken

/-! ## Numbers one behind the other -/

/-- Numbers that are read from a position on, each where the one before it ends. -/
inductive Numbers (data : Bytes) : (position : Nat) → List Nat → (behind : Nat) → Prop
  | nil {position : Nat} : Numbers data position [] position
  | cons {position number next behind : Nat} {rest : List Nat} :
      varint data position = .ok (number, next) → Numbers data next rest behind →
      Numbers data position (number :: rest) behind

namespace Numbers

variable {data : Bytes} {position middle behind : Nat} {numbers first second : List Nat}

theorem cons_iff {number : Nat} : Numbers data position (number :: numbers) behind ↔
    ∃ next, varint data position = .ok (number, next) ∧ Numbers data next numbers behind := by
  constructor
  · intro told
    cases told with
    | cons read rest => exact ⟨_, read, rest⟩
  · rintro ⟨next, read, rest⟩
    exact .cons read rest

theorem append (front : Numbers data position first middle)
    (back : Numbers data middle second behind) :
    Numbers data position (first ++ second) behind := by
  induction front with
  | nil => exact back
  | cons read _ inductionHypothesis => exact .cons read (inductionHypothesis back)

theorem split (whole : Numbers data position (first ++ second) behind) :
    ∃ middle, Numbers data position first middle ∧ Numbers data middle second behind := by
  induction first generalizing position with
  | nil => exact ⟨position, .nil, whole⟩
  | cons number rest inductionHypothesis =>
      obtain ⟨next, read, others⟩ := cons_iff.mp whole
      obtain ⟨middle, front, back⟩ := inductionHypothesis others
      exact ⟨middle, .cons read front, back⟩

theorem small (told : Numbers data position numbers behind) :
    ∀ number ∈ numbers, number < 2 ^ 32 := by
  induction told with
  | nil => nofun
  | cons read _ inductionHypothesis =>
      exact List.forall_mem_cons.mpr ⟨(bound_of_varint read).1, inductionHypothesis⟩

theorem room (told : Numbers data position numbers behind) :
    position + numbers.length ≤ behind := by
  induction told with
  | nil => exact Nat.le_refl _
  | cons read _ inductionHypothesis =>
      obtain ⟨-, forward, -⟩ := bound_of_varint read
      rw [List.length_cons]
      omega

theorem bound (told : Numbers data position numbers behind) (within : position ≤ data.length) :
    behind ≤ data.length := by
  induction told with
  | nil => exact within
  | cons read _ inductionHypothesis => exact inductionHypothesis (bound_of_varint read).2.2

theorem length_le (told : Numbers data position numbers behind) :
    numbers.length ≤ data.length := by
  cases told with
  | nil => exact Nat.zero_le _
  | cons read rest =>
      obtain ⟨-, -, within⟩ := bound_of_varint read
      have restRoom := rest.room
      have restBound := rest.bound within
      obtain ⟨-, forward, -⟩ := bound_of_varint read
      rw [List.length_cons]
      omega

end Numbers

/-! ## Classes -/

/-- The numbers that tell methods: the distance of the index of each from that of the one before it,
its flags and the position of its code. -/
def methodNumbers : (distances : List Nat) → List MethodEntry → List Nat
  | distance :: distances, method :: methods =>
    distance :: method.accessFlags :: method.codeStart :: methodNumbers distances methods
  | _, _ => []

def runningSums : (start : Nat) → (distances : List Nat) → List Nat
  | _, [] => []
  | start, distance :: distances => (start + distance) :: runningSums (start + distance) distances

/-- Methods whose indices are the sums of the distances up to theirs, behind a previous index. -/
structure AddUp (previous : Nat) (distances : List Nat) (methods : List MethodEntry) : Prop where
  length : distances.length = methods.length
  indices : methods.map MethodEntry.methodIndex = runningSums previous distances
  small : ∀ method ∈ methods, method.methodIndex < 2 ^ 32

/-- The methods that the data of a class at a position declare: none if there are no data, else as
many as the counts tell, behind two numbers for every field. -/
inductive Declares (data : Bytes) : (start : Nat) → (direct virtual : List MethodEntry) → Prop
  | nothing : Declares data 0 [] []
  | told {start staticFields instanceFields behind : Nat}
      {fields directDistances virtualDistances : List Nat} {direct virtual : List MethodEntry} :
      start ≠ 0 → fields.length = 2 * (staticFields + instanceFields) →
      AddUp 0 directDistances direct → AddUp 0 virtualDistances virtual →
      Numbers data start ([staticFields, instanceFields, direct.length, virtual.length] ++
        (fields ++ (methodNumbers directDistances direct ++
          methodNumbers virtualDistances virtual))) behind →
      Declares data start direct virtual

theorem length_methodNumbers {distances : List Nat} {methods : List MethodEntry}
    (same : distances.length = methods.length) :
    (methodNumbers distances methods).length = 3 * methods.length := by
  induction methods generalizing distances with
  | nil =>
      obtain rfl := List.length_eq_zero_iff.mp same
      rfl
  | cons method rest inductionHypothesis =>
      obtain ⟨distance, others, rfl⟩ := List.exists_cons_of_length_eq_add_one same
      have later := inductionHypothesis (Nat.succ.inj same)
      simp only [methodNumbers, List.length_cons, later]
      omega

section Classes

variable {data : Bytes}

theorem numbers_of_skipVarints {count position behind : Nat}
    (skipped : Container.skipVarints data count position = .ok behind) :
    ∃ numbers, numbers.length = count ∧ Numbers data position numbers behind := by
  induction count generalizing position with
  | zero =>
      obtain rfl := Except.ok.inj skipped
      exact ⟨[], rfl, .nil⟩
  | succ count inductionHypothesis =>
      obtain ⟨⟨number, next⟩, read, continued⟩ := exists_of_bind_eq_ok skipped
      obtain ⟨numbers, rfl, told⟩ := inductionHypothesis continued
      exact ⟨number :: numbers, rfl, .cons read told⟩

theorem skipVarints_of_numbers {position behind : Nat} {numbers : List Nat}
    (told : Numbers data position numbers behind) :
    Container.skipVarints data numbers.length position = .ok behind := by
  induction told with
  | nil => rfl
  | cons read _ inductionHypothesis =>
      rw [List.length_cons, Container.skipVarints, read]
      exact inductionHypothesis

theorem numbers_of_methodEntries {count previous position behind : Nat}
    {methods : List MethodEntry}
    (read : Container.methodEntries data count previous position = .ok (methods, behind)) :
    methods.length = count ∧ ∃ distances, AddUp previous distances methods ∧
      Numbers data position (methodNumbers distances methods) behind := by
  induction count generalizing previous position methods with
  | zero =>
      obtain ⟨rfl, rfl⟩ := Prod.mk.inj (Except.ok.inj read)
      exact ⟨rfl, [], ⟨rfl, rfl, nofun⟩, .nil⟩
  | succ count inductionHypothesis =>
      obtain ⟨⟨distance, next⟩, distanceRead, checked⟩ := exists_of_bind_eq_ok read
      dsimp only at checked
      split at checked
      · cases checked
      · rename_i noOverflow
        obtain ⟨⟨accessFlags, behindFlags⟩, flagsRead, flagged⟩ := exists_of_bind_eq_ok checked
        obtain ⟨⟨codeStart, behindStart⟩, startRead, started⟩ := exists_of_bind_eq_ok flagged
        obtain ⟨⟨others, stop⟩, othersRead, returned⟩ := exists_of_bind_eq_ok started
        obtain ⟨rfl, rfl⟩ := Prod.mk.inj (Except.ok.inj returned)
        obtain ⟨rfl, distances, ⟨length, indices, small⟩, told⟩ := inductionHypothesis othersRead
        refine ⟨rfl, distance :: distances, ⟨congrArg (· + 1) length, ?_, ?_⟩,
          .cons distanceRead (.cons flagsRead (.cons startRead told))⟩
        · rw [List.map_cons, indices, runningSums]
        · exact List.forall_mem_cons.mpr ⟨Nat.lt_of_not_le noOverflow, small⟩

theorem methodEntries_of_numbers {previous position behind : Nat} {distances : List Nat}
    {methods : List MethodEntry} (sums : AddUp previous distances methods)
    (told : Numbers data position (methodNumbers distances methods) behind) :
    Container.methodEntries data methods.length previous position = .ok (methods, behind) := by
  obtain ⟨length, indices, small⟩ := sums
  induction methods generalizing previous position distances with
  | nil =>
      obtain rfl := List.length_eq_zero_iff.mp length
      cases told
      rfl
  | cons method rest inductionHypothesis =>
      obtain ⟨distance, others, rfl⟩ := List.exists_cons_of_length_eq_add_one length
      obtain ⟨index, accessFlags, codeStart⟩ := method
      obtain ⟨indexEq, laterIndices⟩ := List.cons.inj indices
      simp only at indexEq
      subst indexEq
      obtain ⟨indexSmall, laterSmall⟩ := List.forall_mem_cons.mp small
      have noOverflow : ¬ Nat.pow 2 32 ≤ previous + distance := Nat.not_le_of_lt indexSmall
      obtain ⟨_, distanceRead, told⟩ := Numbers.cons_iff.mp told
      obtain ⟨_, flagsRead, told⟩ := Numbers.cons_iff.mp told
      obtain ⟨_, startRead, told⟩ := Numbers.cons_iff.mp told
      have later := inductionHypothesis told (Nat.succ.inj length) laterIndices laterSmall
      simp only [List.length_cons, Container.methodEntries, distanceRead, noOverflow, flagsRead,
        startRead, later, bind, Except.bind, if_false]
      rfl

theorem declares_of_classMethods {container : Container} {entry : ClassEntry}
    {direct virtual : List MethodEntry}
    (read : container.classMethods entry = .ok (direct, virtual)) :
    Declares container.data entry.dataStart direct virtual := by
  rw [Container.classMethods] at read
  split at read
  · rename_i nowhere
    obtain ⟨rfl, rfl⟩ := Prod.mk.inj (Except.ok.inj read)
    rw [nowhere]
    exact .nothing
  · rename_i somewhere
    obtain ⟨⟨staticFields, first⟩, staticRead, read⟩ := exists_of_bind_eq_ok read
    obtain ⟨⟨instanceFields, second⟩, instanceRead, read⟩ := exists_of_bind_eq_ok read
    obtain ⟨⟨directCount, third⟩, directCountRead, read⟩ := exists_of_bind_eq_ok read
    obtain ⟨⟨virtualCount, fourth⟩, virtualCountRead, read⟩ := exists_of_bind_eq_ok read
    obtain ⟨behindFields, skipped, read⟩ := exists_of_bind_eq_ok read
    obtain ⟨⟨directMethods, behindDirect⟩, directRead, read⟩ := exists_of_bind_eq_ok read
    obtain ⟨⟨virtualMethods, behind⟩, virtualRead, read⟩ := exists_of_bind_eq_ok read
    obtain ⟨rfl, rfl⟩ := Prod.mk.inj (Except.ok.inj read)
    obtain ⟨fields, fieldCount, fieldsTold⟩ := numbers_of_skipVarints skipped
    obtain ⟨rfl, directDistances, directSums, directTold⟩ := numbers_of_methodEntries directRead
    obtain ⟨rfl, virtualDistances, virtualSums, virtualTold⟩ :=
      numbers_of_methodEntries virtualRead
    have counts : Numbers container.data entry.dataStart
        [staticFields, instanceFields, directMethods.length, virtualMethods.length] fourth :=
      .cons staticRead (.cons instanceRead (.cons directCountRead
        (.cons virtualCountRead .nil)))
    exact .told somewhere fieldCount directSums virtualSums
      (counts.append (fieldsTold.append (directTold.append virtualTold)))

theorem classMethods_of_declares {container : Container} {entry : ClassEntry}
    {direct virtual : List MethodEntry}
    (declares : Declares container.data entry.dataStart direct virtual) :
    container.classMethods entry = .ok (direct, virtual) := by
  rw [Container.classMethods]
  generalize entry.dataStart = start at declares
  cases declares with
  | nothing => rfl
  | told somewhere fieldCount directSums virtualSums told =>
      obtain ⟨fourth, counts, told⟩ := told.split
      obtain ⟨_, staticRead, counts⟩ := Numbers.cons_iff.mp counts
      obtain ⟨_, instanceRead, counts⟩ := Numbers.cons_iff.mp counts
      obtain ⟨_, directCountRead, counts⟩ := Numbers.cons_iff.mp counts
      obtain ⟨_, virtualCountRead, counts⟩ := Numbers.cons_iff.mp counts
      cases counts
      obtain ⟨behindFields, fieldsTold, told⟩ := told.split
      obtain ⟨behindDirect, directTold, virtualTold⟩ := told.split
      have skipped := skipVarints_of_numbers fieldsTold
      have directRead := methodEntries_of_numbers directSums directTold
      have virtualRead := methodEntries_of_numbers virtualSums virtualTold
      rw [fieldCount] at skipped
      simp only [somewhere, staticRead, instanceRead, directCountRead, virtualCountRead,
        skipped, directRead, virtualRead, if_false, bind, Except.bind]
      rfl

theorem classMethods_eq_ok_iff {container : Container} {entry : ClassEntry}
    {direct virtual : List MethodEntry} :
    container.classMethods entry = .ok (direct, virtual) ↔
      Declares container.data entry.dataStart direct virtual :=
  ⟨declares_of_classMethods, classMethods_of_declares⟩

theorem Declares.length_le {start : Nat} {direct virtual : List MethodEntry}
    (declares : Declares data start direct virtual) :
    3 * (direct.length + virtual.length) ≤ data.length := by
  cases declares with
  | nothing => exact Nat.zero_le _
  | told _ _ directSums virtualSums told =>
      have numbersLe := told.length_le
      simp only [List.length_append, length_methodNumbers directSums.length,
        length_methodNumbers virtualSums.length] at numbersLe
      omega

end Classes

/-! ## Parameters and units -/

section Lists

variable {container : Container}

theorem length_of_typeList {count position : Nat} {descriptors : List String}
    (listed : container.typeList count position = .ok descriptors)
    (within : position ≤ container.data.length) :
    descriptors.length = count ∧ position + 2 * count ≤ container.data.length := by
  induction count generalizing position descriptors with
  | zero =>
      obtain rfl := Except.ok.inj listed
      exact ⟨rfl, within⟩
  | succ count inductionHypothesis =>
      obtain ⟨index, indexRead, listed⟩ := exists_of_bind_eq_ok listed
      obtain ⟨descriptor, -, listed⟩ := exists_of_bind_eq_ok listed
      obtain ⟨others, othersListed, returned⟩ := exists_of_bind_eq_ok listed
      obtain rfl := Except.ok.inj returned
      obtain ⟨length, bound⟩ := inductionHypothesis othersListed (bound_of_half indexRead)
      exact ⟨congrArg (· + 1) length, by omega⟩

theorem length_of_parametersAt {start : Nat} {parameters : List String}
    (listed : container.parametersAt start = .ok parameters) :
    start = 0 ∧ parameters = [] ∨
      word32 container.data start = .ok parameters.length ∧
        start + 4 + 2 * parameters.length ≤ container.data.length := by
  rw [Container.parametersAt] at listed
  split at listed
  · rename_i nowhere
    exact .inl ⟨nowhere, (Except.ok.inj listed).symm⟩
  · obtain ⟨count, told, listed⟩ := exists_of_bind_eq_ok listed
    obtain ⟨rfl, bound⟩ := length_of_typeList listed (bound_of_word32 told).1
    exact .inr ⟨told, bound⟩

theorem length_of_protoAt {index : Nat} {proto : Prototype}
    (read : container.protoAt index = .ok proto) :
    2 * proto.parameters.length ≤ container.data.length := by
  obtain ⟨place, -, read⟩ := exists_of_bind_eq_ok read
  obtain ⟨shorty, -, read⟩ := exists_of_bind_eq_ok read
  obtain ⟨returnType, -, read⟩ := exists_of_bind_eq_ok read
  obtain ⟨start, -, read⟩ := exists_of_bind_eq_ok read
  obtain ⟨parameters, listed, read⟩ := exists_of_bind_eq_ok read
  obtain ⟨shortyText, -, read⟩ := exists_of_bind_eq_ok read
  obtain ⟨returnText, -, read⟩ := exists_of_bind_eq_ok read
  obtain rfl := Except.ok.inj read
  have parametersLe : 2 * parameters.length ≤ container.data.length := by
    rcases length_of_parametersAt listed with ⟨-, rfl⟩ | ⟨-, bound⟩
    · exact Nat.zero_le _
    · omega
  exact parametersLe

theorem length_of_unitsAt {data : Bytes} {count position : Nat} {units : List UInt16}
    (read : unitsAt data count position = .ok units) :
    units.length = count ∧ position + 2 * count ≤ data.length := by
  obtain ⟨octets, taken, rfl⟩ := exists_of_map_eq_ok read
  obtain ⟨bound, length⟩ := bound_of_take taken
  refine ⟨?_, bound⟩
  rw [List.length_map, Bytes.length_chunks (by decide), length,
    Nat.mul_div_cancel_left _ (by decide)]

theorem length_of_codeUnits {start : Nat} {units : List UInt16}
    (read : container.codeUnits start = .ok units) :
    word32 container.data (start + 12) = .ok units.length ∧
      start + 16 + 2 * units.length ≤ container.data.length := by
  obtain ⟨count, told, read⟩ := exists_of_bind_eq_ok read
  obtain ⟨rfl, bound⟩ := length_of_unitsAt read
  exact ⟨told, bound⟩

theorem exists_codeUnits {start count : Nat}
    (told : word32 container.data (start + 12) = .ok count)
    (bound : start + 16 + 2 * count ≤ container.data.length) :
    ∃ units, container.codeUnits start = .ok units := by
  have taken : take container.data .codeUnits (2 * count) (start + 16) = _ :=
    take_eq_ok_iff.mpr ⟨bound, rfl⟩
  rw [Container.codeUnits, told]
  exact ⟨_, congrArg (Except.map _) taken⟩

end Lists

end ByteListing.Dex
