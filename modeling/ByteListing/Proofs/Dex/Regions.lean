import ByteListing.Proofs.Dex.Layout

/-! # Where everything stands

Whatever `layOut` puts somewhere stands at the position that is told of it, so the octets of
`Contents` hold every table and every piece of data where it is looked for (`regions`). -/
set_option autoImplicit false
namespace ByteListing.Dex

open ByteListing.Bytes (littleOctets length_littleOctets)

/-! ## Where items are put -/

section LayOut

variable {Item Placed : Type} {step : Nat → Item → Placed × Bytes}

theorem map_layOut {recover : Placed → Item}
    (keeps : ∀ position item, recover (step position item).1 = item) (position : Nat)
    (items : List Item) : (layOut step position items).1.map recover = items := by
  induction items generalizing position with
  | nil => rfl
  | cons item rest inductionHypothesis =>
      rw [layOut, List.map_cons, keeps, inductionHypothesis]

theorem step_of_mem_layOut {data : Bytes} {position : Nat} {items : List Item}
    (held : Holds data position (layOut step position items).2) {placed : Placed}
    (member : placed ∈ (layOut step position items).1) :
    ∃ place, ∃ item, position ≤ place ∧ placed = (step place item).1 ∧
      Holds data place (step place item).2 := by
  induction items generalizing position with
  | nil => cases member
  | cons item rest inductionHypothesis =>
      rw [layOut] at held member
      rcases List.mem_cons.mp member with rfl | later
      · exact ⟨position, item, Nat.le_refl _, rfl, held.front⟩
      · obtain ⟨place, other, beyond, shown, stands⟩ := inductionHypothesis held.behind later
        exact ⟨place, other, by omega, shown, stands⟩

end LayOut

/-- A piece that may be missing stands at a position, which is zero if it is. -/
def Stands (data : Bytes) (piece? : Option Bytes) (start : Nat) : Prop :=
  match piece? with
  | none => start = 0
  | some piece => 0 < start ∧ Holds data start piece

theorem Stands.start_le {data : Bytes} {piece? : Option Bytes} {start : Nat}
    (stands : Stands data piece? start) : start ≤ data.length := by
  cases piece? with
  | none =>
      obtain rfl : start = 0 := stands
      exact Nat.zero_le _
  | some piece =>
      have bound := stands.2.bound
      omega

theorem map_atOnce {Item : Type} (write : Item → Bytes) (position : Nat) (items : List Item) :
    (layOut (atOnce write) position items).1.map Prod.fst = items :=
  map_layOut (fun _ _ => rfl) position items

theorem holds_of_mem_atOnce {Item : Type} {write : Item → Bytes} {data : Bytes} {position : Nat}
    {items : List Item} (held : Holds data position (layOut (atOnce write) position items).2)
    {entry : Item × Nat} (member : entry ∈ (layOut (atOnce write) position items).1) :
    Holds data entry.2 (write entry.1) := by
  obtain ⟨place, item, -, rfl, stands⟩ := step_of_mem_layOut held member
  exact stands

theorem map_aligned {Item : Type} (write? : Item → Option Bytes) (position : Nat)
    (items : List Item) : (layOut (aligned write?) position items).1.map Prod.fst = items := by
  refine map_layOut (fun position item => ?_) position items
  rw [aligned]
  split <;> rfl

theorem stands_of_mem_aligned {Item : Type} {write? : Item → Option Bytes} {data : Bytes}
    {position : Nat} (positive : 0 < position) {items : List Item}
    (held : Holds data position (layOut (aligned write?) position items).2)
    {entry : Item × Nat} (member : entry ∈ (layOut (aligned write?) position items).1) :
    Stands data (write? entry.1) entry.2 := by
  obtain ⟨place, item, beyond, rfl, stands⟩ := step_of_mem_layOut held member
  rw [aligned] at stands ⊢
  cases written : write? item with
  | none => simp only [Stands, written]
  | some piece =>
      rw [written] at stands
      simp only [Stands, written]
      exact ⟨by omega, stands.behind⟩

theorem getElem?_placed {Item Placed : Type} {recover : Placed → Item} {placed : List Placed}
    {items : List Item} (kept : placed.map recover = items) {index : Nat} {item : Item}
    (found : items[index]? = some item) :
    ∃ entry, placed[index]? = some entry ∧ recover entry = item := by
  rw [← kept, List.getElem?_map] at found
  exact Option.map_eq_some_iff.mp found

section Sizes

variable {strings types protos methods : Nat}

theorem ProtoItem.length_octets (proto : ProtoItem strings types) (parametersStart : Nat) :
    (proto.octets parametersStart).length = 12 := by
  simp [octets]

theorem FieldItem.length_octets (field : FieldItem strings types) : field.octets.length = 8 := by
  simp [octets]

theorem MethodItem.length_octets (method : MethodItem strings types protos) :
    method.octets.length = 8 := by
  simp [octets]

theorem PlacedClass.length_octets (placed : PlacedClass types methods) :
    placed.octets.length = 32 := by
  simp [octets]

end Sizes

namespace Contents

variable (contents : Contents)

theorem map_placedStrings : contents.placedStrings.1.map Prod.fst = contents.strings :=
  map_atOnce ..

theorem map_placedProtos : contents.placedProtos.1.map Prod.fst = contents.protos :=
  map_aligned ..

theorem map_placedClasses :
    contents.placedClasses.1.map PlacedClass.item = contents.classes := by
  refine map_layOut (fun position item => ?_) _ _
  rw [ClassItem.place]
  split <;> rfl

/-! ## Where tables stand -/

theorem length_stringTable : contents.stringTable.length = contents.strings.length * 4 := by
  have sizes (text : String × Nat) : (littleOctets 4 text.2).length = 4 := length_littleOctets 4 _
  have count := congrArg List.length contents.map_placedStrings
  rw [List.length_map] at count
  rw [stringTable, length_flatMap_of_sizes sizes, count]

theorem length_typeTable : contents.typeTable.length = contents.types.length * 4 := by
  have sizes (text : Fin contents.strings.length) : (littleOctets 4 text.val).length = 4 :=
    length_littleOctets 4 _
  exact length_flatMap_of_sizes sizes contents.types

theorem length_protoTable : contents.protoTable.length = contents.protos.length * 12 := by
  have count := congrArg List.length contents.map_placedProtos
  rw [List.length_map] at count
  rw [← count]
  exact length_flatMap_of_sizes (fun proto => proto.1.length_octets proto.2) _

theorem length_fieldTable : contents.fieldTable.length = contents.fields.length * 8 :=
  length_flatMap_of_sizes FieldItem.length_octets _

theorem length_methodTable : contents.methodTable.length = contents.methods.length * 8 :=
  length_flatMap_of_sizes MethodItem.length_octets _

theorem length_classTable : contents.classTable.length = contents.classes.length * 32 := by
  have count := congrArg List.length contents.map_placedClasses
  rw [List.length_map] at count
  rw [← count]
  exact length_flatMap_of_sizes PlacedClass.length_octets _

theorem length_header : contents.header.length = Container.headerSize := by
  have tables : (contents.tables.flatMap Table.octets).length = 6 * 8 :=
    length_flatMap_of_sizes (fun table => by simp [Table.octets]) _
  simp [header, tables, Container.headerSize]

/-- Nothing stands at zero, so that zero can tell that there is nothing. -/
theorem parametersStart_pos : 0 < contents.parametersStart := by
  simp only [parametersStart, stringDataStart, classesStart, methodsStart, fieldsStart,
    protosStart, typesStart, stringsStart, Container.headerSize]
  omega

theorem classDataStart_pos : 0 < contents.classDataStart := by
  have earlier := contents.parametersStart_pos
  rw [classDataStart]
  omega

structure Regions (data : Bytes) : Prop where
  header : Holds data 0 contents.header
  strings : Holds data contents.stringsStart contents.stringTable
  types : Holds data contents.typesStart contents.typeTable
  protos : Holds data contents.protosStart contents.protoTable
  fields : Holds data contents.fieldsStart contents.fieldTable
  methods : Holds data contents.methodsStart contents.methodTable
  classes : Holds data contents.classesStart contents.classTable
  stringData : Holds data contents.stringDataStart contents.placedStrings.2
  parameters : Holds data contents.parametersStart contents.placedProtos.2
  classData : Holds data contents.classDataStart contents.placedClasses.2

theorem regions : contents.Regions contents.octets := by
  have whole := Holds.whole contents.octets
  have body : Holds contents.octets contents.stringsStart contents.body := by
    have held := whole.behind
    rwa [length_header, Nat.zero_add] at held
  have behindStrings := body.behind
  rw [length_stringTable] at behindStrings
  have behindTypes := behindStrings.behind
  rw [length_typeTable] at behindTypes
  have behindProtos := behindTypes.behind
  rw [length_protoTable] at behindProtos
  have behindFields := behindProtos.behind
  rw [length_fieldTable] at behindFields
  have behindMethods := behindFields.behind
  rw [length_methodTable] at behindMethods
  have behindClasses := behindMethods.behind
  rw [length_classTable] at behindClasses
  have behindText := behindClasses.behind
  exact ⟨whole.front, body.front, behindStrings.front, behindTypes.front, behindProtos.front,
    behindFields.front, behindMethods.front, behindClasses.front, behindText.front,
    behindText.behind⟩

end Contents

end ByteListing.Dex
