import ByteListing.Proofs.Dex.Regions

/-! # The data of classes read back

The data of a class is a sequence of numbers of no fixed size.  Whatever numbers its fields have,
they are skipped (`skipVarints_of_holds`), and in either list of methods the distances between
indices add up to the indices themselves (`methodEntries_of_holds`).  A class that stands where it
is told to is read with both lists of its methods (`classMethods_of_isLaidOut`). -/
set_option autoImplicit false
namespace ByteListing.Dex

def methodEntry {methods : Nat} (method : ClassMethod methods × Nat) : MethodEntry :=
  ⟨method.1.method.val, method.1.accessFlags.toNat, method.2⟩

theorem skipVarints_of_holds {data : Bytes} {numbers : List Nat} {position : Nat}
    (small : ∀ number ∈ numbers, number < 2 ^ 32)
    (held : Holds data position (numbers.flatMap Base128.groups)) :
    Container.skipVarints data numbers.length position =
      .ok (position + (numbers.flatMap Base128.groups).length) := by
  induction numbers generalizing position with
  | nil => rfl
  | cons number rest inductionHypothesis =>
      rw [List.flatMap_cons] at held
      have read := varint_of_holds held.front (small number (List.mem_cons_self ..))
      have later := inductionHypothesis
        (fun other member => small other (List.mem_cons_of_mem number member)) held.behind
      rw [List.length_cons, Container.skipVarints, read, List.flatMap_cons, List.length_append,
        ← Nat.add_assoc]
      exact later

theorem methodEntries_of_holds {data : Bytes} {methods : Nat} (few : methods ≤ 2 ^ 32)
    {listed : List (ClassMethod methods × Nat)} {previous position : Nat}
    (ordered : (previous :: listed.map fun method => method.1.method.val).Pairwise (· ≤ ·))
    (starts : ∀ method ∈ listed, method.2 < 2 ^ 32)
    (held : Holds data position (methodOctets previous listed)) :
    Container.methodEntries data listed.length previous position =
      .ok (listed.map methodEntry, position + (methodOctets previous listed).length) := by
  induction listed generalizing previous position with
  | nil => rfl
  | cons method rest inductionHypothesis =>
      obtain ⟨method, start⟩ := method
      rw [List.map_cons, List.pairwise_cons] at ordered
      rw [methodOctets] at held
      have indexLt := method.method.isLt
      have notLess : previous ≤ method.method.val := ordered.1 _ (List.mem_cons_self ..)
      have together : previous + (method.method.val - previous) = method.method.val := by omega
      have readDistance := varint_of_holds held.front (by omega)
      have readFlags := varint_of_holds held.behind.front method.accessFlags.toNat_lt
      have startSmall : start < 2 ^ 32 := starts (method, start) (List.mem_cons_self ..)
      have readStart := varint_of_holds held.behind.behind.front startSmall
      have later := inductionHypothesis ordered.2
        (fun other member => starts other (List.mem_cons_of_mem _ member))
        held.behind.behind.behind
      have noOverflow : ¬ Nat.pow 2 32 ≤ method.method.val := by
        have bound : Nat.pow 2 32 = 2 ^ 32 := rfl
        omega
      simp only [List.length_cons, Container.methodEntries, readDistance, together, noOverflow,
        readFlags, readStart, later, bind, Except.bind, if_false]
      simp only [methodOctets, List.length_append, Nat.add_assoc]
      rfl

theorem length_fieldNumbers (fields : List (UInt32 × UInt32)) :
    (fieldNumbers fields).length = 2 * fields.length := by
  induction fields with
  | nil => rfl
  | cons field rest inductionHypothesis =>
      rw [fieldNumbers, List.flatMap_cons, ← fieldNumbers, List.length_append,
        inductionHypothesis]
      simp only [List.length_cons, List.length_nil]
      omega

theorem fieldNumbers_small (fields : List (UInt32 × UInt32)) :
    ∀ number ∈ fieldNumbers fields, number < 2 ^ 32 := by
  intro number member
  obtain ⟨field, -, written⟩ := List.mem_flatMap.mp member
  simp only [List.mem_cons, List.not_mem_nil, or_false] at written
  rcases written with rfl | rfl
  · exact field.1.toNat_lt
  · exact field.2.toNat_lt

theorem length_groups_pos (value : Nat) : 0 < (Base128.groups value).length := by
  rw [List.length_pos_iff]
  exact (Base128.terminated_groups value).ne_nil

theorem length_le_flatMap_groups (numbers : List Nat) :
    numbers.length ≤ (numbers.flatMap Base128.groups).length := by
  induction numbers with
  | nil => exact Nat.le_refl 0
  | cons number rest inductionHypothesis =>
      have positive := length_groups_pos number
      rw [List.flatMap_cons, List.length_append, List.length_cons]
      omega

theorem length_le_methodOctets {methods : Nat} (previous : Nat)
    (listed : List (ClassMethod methods × Nat)) :
    listed.length ≤ (methodOctets previous listed).length := by
  induction listed generalizing previous with
  | nil => exact Nat.le_refl 0
  | cons method rest inductionHypothesis =>
      obtain ⟨method, start⟩ := method
      have later := inductionHypothesis method.method.val
      have positive := length_groups_pos start
      simp only [methodOctets, List.length_append, List.length_cons]
      omega

/-! ## Classes in a container -/

namespace PlacedClass

variable {types methods : Nat}

def entry (placed : PlacedClass types methods) : ClassEntry :=
  ⟨placed.item.type.val, placed.item.accessFlags.toNat,
    (placed.item.superclass.map Fin.val).getD Container.noIndex, placed.dataStart⟩

/-- A class is placed as it is declared, and what is told of its data and of the code of its
methods stands where that is. -/
structure IsLaidOut (data : Bytes) (placed : PlacedClass types methods) : Prop where
  declared : Stands data
    (placed.item.data.map fun declared => declared.octets placed.direct placed.virtual)
    placed.dataStart
  direct : placed.direct.map Prod.fst = (placed.item.data.map ClassData.direct).getD []
  virtual : placed.virtual.map Prod.fst = (placed.item.data.map ClassData.virtual).getD []
  codes : ∀ method ∈ placed.direct ++ placed.virtual, Stands data method.1.codeItem? method.2

end PlacedClass

theorem ClassItem.isLaidOut_place {types methods : Nat} {data : Bytes} {position : Nat}
    (positive : 0 < position) {item : ClassItem types methods}
    (held : Holds data position (item.place position).2) :
    (item.place position).1.IsLaidOut data := by
  rw [place] at held ⊢
  cases declared : item.data with
  | none =>
      refine ⟨?_, ?_, ?_, fun _ member => absurd member List.not_mem_nil⟩
      · simp only [declared, Option.map_none, Stands]
      · simp only [declared, Option.map_none, List.map_nil, Option.getD_none]
      · simp only [declared, Option.map_none, List.map_nil, Option.getD_none]
  | some listed =>
      rw [declared] at held
      simp only at held ⊢
      have behindDirect := held.behind
      have behindVirtual := behindDirect.behind
      refine ⟨?_, ?_, ?_, fun method member => ?_⟩
      · simp only [declared, Option.map_some, Stands]
        exact ⟨by omega, behindVirtual⟩
      · simp only [declared, Option.map_some, Option.getD_some, map_aligned]
      · simp only [declared, Option.map_some, Option.getD_some, map_aligned]
      · rcases List.mem_append.mp member with direct | virtual
        · exact stands_of_mem_aligned positive held.front direct
        · exact stands_of_mem_aligned (by omega) behindDirect.front virtual

theorem methodEntries_of_inOrder {data : Bytes} {methods : Nat} (few : methods ≤ 2 ^ 32)
    (small : data.length < 2 ^ 32) {listed : List (ClassMethod methods × Nat)} {position : Nat}
    (ordered : InOrder (listed.map Prod.fst))
    (codes : ∀ method ∈ listed, Stands data method.1.codeItem? method.2)
    (held : Holds data position (methodOctets 0 listed)) :
    Container.methodEntries data listed.length 0 position =
      .ok (listed.map methodEntry, position + (methodOctets 0 listed).length) := by
  rw [InOrder, List.map_map] at ordered
  refine methodEntries_of_holds few (List.pairwise_cons.mpr ⟨fun _ _ => Nat.zero_le _, ordered⟩)
    (fun method member => ?_) held
  exact Nat.lt_of_le_of_lt (codes method member).start_le small

theorem classMethods_of_isLaidOut {types methods : Nat} {container : Container}
    {placed : PlacedClass types methods} (few : methods ≤ 2 ^ 32)
    (small : container.data.length < 2 ^ 32) (laidOut : placed.IsLaidOut container.data) :
    container.classMethods placed.entry =
      .ok (placed.direct.map methodEntry, placed.virtual.map methodEntry) := by
  obtain ⟨declared, direct, virtual, codes⟩ := laidOut
  cases data : placed.item.data with
  | none =>
      rw [data] at declared direct virtual
      have nowhere : placed.dataStart = 0 := declared
      have noDirect : placed.direct = [] := List.map_eq_nil_iff.mp direct
      have noVirtual : placed.virtual = [] := List.map_eq_nil_iff.mp virtual
      simp only [Container.classMethods, PlacedClass.entry, nowhere, noDirect, noVirtual,
        List.map_nil, if_true]
      rfl
  | some listed =>
      rw [data] at declared direct virtual
      obtain ⟨positive, held⟩ := declared
      simp only [Option.map_some, Option.getD_some] at direct virtual
      have somewhere : ¬ placed.dataStart = 0 := by omega
      have bound := held.bound
      have numbersLe := length_le_flatMap_groups
        (fieldNumbers (listed.staticFields ++ listed.instanceFields))
      have directLe := length_le_methodOctets 0 placed.direct
      have virtualLe := length_le_methodOctets 0 placed.virtual
      rw [length_fieldNumbers, List.length_append] at numbersLe
      simp only [ClassData.octets, List.length_append] at bound
      have behindStatic := held.behind
      have behindInstance := behindStatic.behind
      have behindDirect := behindInstance.behind
      have behindCounts := behindDirect.behind
      have behindFields := behindCounts.behind
      have readStatic := varint_of_holds held.front (by omega)
      have readInstance := varint_of_holds behindStatic.front (by omega)
      have readDirectCount := varint_of_holds behindInstance.front (by omega)
      have readVirtualCount := varint_of_holds behindDirect.front (by omega)
      have skip := skipVarints_of_holds (fieldNumbers_small _) behindCounts.front
      rw [length_fieldNumbers, List.length_append] at skip
      have directOrdered := listed.directOrdered
      have virtualOrdered := listed.virtualOrdered
      rw [← direct] at directOrdered
      rw [← virtual] at virtualOrdered
      have readDirect := methodEntries_of_inOrder few small directOrdered
        (fun method member => codes method (List.mem_append_left _ member)) behindFields.front
      have readVirtual := methodEntries_of_inOrder few small virtualOrdered
        (fun method member => codes method (List.mem_append_right _ member)) behindFields.behind
      simp only [Container.classMethods, PlacedClass.entry, somewhere, readStatic, readInstance,
        readDirectCount, readVirtualCount, skip, readDirect, readVirtual, if_false, bind,
        Except.bind]
      rfl

end ByteListing.Dex
