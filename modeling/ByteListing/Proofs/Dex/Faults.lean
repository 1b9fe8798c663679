import ByteListing.Dex.Classes

/-! # What reading a container fails with

Whatever is read of a container, it is read or the container is said to be malformed at a position.
That a class or a method is not there is never said by what reads, only by what looks for names. -/
set_option autoImplicit false
namespace ByteListing.Dex

def OnlyMalformed {Value : Type} (result : Except Fault Value) : Prop :=
  ∀ fault, result = .error fault →
    ∃ position details, fault = .malformedContainer position details

namespace OnlyMalformed

section Results

variable {Item Value Next : Type}

theorem ok (value : Value) : OnlyMalformed (.ok value : Except Fault Value) := nofun

theorem flaw (flaw : Flaw) (position : Nat) :
    OnlyMalformed (.error (flaw.fault position) : Except Fault Value) := by
  rintro _ ⟨⟩
  exact ⟨position, flaw.describe, rfl⟩

theorem bind {result : Except Fault Value} {next : Value → Except Fault Next}
    (first : OnlyMalformed result) (later : ∀ value, OnlyMalformed (next value)) :
    OnlyMalformed (result >>= next) := by
  intro fault failure
  cases result with
  | error cause =>
      cases failure
      exact first _ rfl
  | ok value => exact later value fault failure

theorem map {result : Except Fault Value} (only : OnlyMalformed result) (change : Value → Next) :
    OnlyMalformed (result.map change) := by
  intro fault failure
  cases result with
  | error cause =>
      cases failure
      exact only _ rfl
  | ok value => cases failure

theorem mapM {read : Item → Except Fault Value} (only : ∀ item, OnlyMalformed (read item))
    (items : List Item) : OnlyMalformed (items.mapM read) := by
  induction items with
  | nil => exact ok []
  | cons item rest inductionHypothesis =>
      rw [List.mapM_cons]
      exact (only item).bind fun value =>
        inductionHypothesis.bind fun values => ok (value :: values)

end Results

/-! ## Octets -/

section Octets

variable (data : Bytes)

theorem take (piece : Piece) (length position : Nat) :
    OnlyMalformed (Dex.take data piece length position) := by
  rw [Dex.take]
  split
  · exact ok _
  · exact flaw _ _

theorem half (position : Nat) : OnlyMalformed (Dex.half data position) :=
  (take data .half 2 position).map _

theorem word32 (position : Nat) : OnlyMalformed (Dex.word32 data position) :=
  (take data .word 4 position).map _

theorem varint (position : Nat) : OnlyMalformed (Dex.varint data position) := by
  rw [Dex.varint]
  split
  · exact ok _
  · split
    · exact flaw _ _
    · exact flaw _ _

theorem textAt (position : Nat) : OnlyMalformed (Dex.textAt data position) := by
  rw [Dex.textAt, terminatedText]
  apply map
  split
  · exact ok _
  · exact flaw _ _

theorem unitsAt (count position : Nat) : OnlyMalformed (Dex.unitsAt data count position) :=
  (take data .codeUnits (2 * count) position).map _

theorem table (kind : TableKind) (position : Nat) :
    OnlyMalformed (Container.table data kind position) := by
  refine (word32 data position).bind fun size => (word32 data _).bind fun start => ?_
  split
  · exact ok _
  · exact flaw _ _

theorem checkOrder : OnlyMalformed (Container.checkOrder data) := by
  refine (word32 data _).bind fun tag => ?_
  dsimp only
  split
  · exact flaw _ _
  · split
    · exact flaw _ _
    · exact ok _

theorem parse : OnlyMalformed (Container.parse data) := by
  rw [Container.parse]
  split
  · exact flaw _ _
  · split
    · exact flaw _ _
    · refine (checkOrder data).bind fun _ => (table data _ _).bind fun strings => ?_
      refine (table data _ _).bind fun types => (table data _ _).bind fun protos => ?_
      refine (table data _ _).bind fun fields => (table data _ _).bind fun methods => ?_
      exact (table data _ _).bind fun classes => ok _

theorem skipVarints (count position : Nat) :
    OnlyMalformed (Container.skipVarints data count position) := by
  induction count generalizing position with
  | zero => exact ok position
  | succ count inductionHypothesis =>
      exact (varint data position).bind fun read => inductionHypothesis read.2

theorem methodEntries (count previous position : Nat) :
    OnlyMalformed (Container.methodEntries data count previous position) := by
  induction count generalizing previous position with
  | zero => exact ok ([], position)
  | succ count inductionHypothesis =>
      rw [Container.methodEntries]
      refine (varint data position).bind fun distance => ?_
      dsimp only
      split
      · exact flaw _ _
      · refine (varint data _).bind fun accessFlags => ?_
        refine (varint data _).bind fun codeStart => ?_
        exact (inductionHypothesis _ _).bind fun others => ok _

end Octets

/-! ## Containers -/

section Containers

variable (container : Container)

theorem entry (table : Table) (index : Nat) : OnlyMalformed (table.entry index) := by
  rw [Table.entry]
  split
  · exact ok _
  · exact flaw _ _

theorem stringAt (index : Nat) : OnlyMalformed (container.stringAt index) := by
  refine (entry _ index).bind fun place => (word32 _ place).bind fun start => ?_
  exact (varint _ start).bind fun length => textAt _ length.2

theorem typeAt (index : Nat) : OnlyMalformed (container.typeAt index) :=
  (entry _ index).bind fun place => (word32 _ place).bind fun text => stringAt container text

theorem typeList (count position : Nat) : OnlyMalformed (container.typeList count position) := by
  induction count generalizing position with
  | zero => exact ok []
  | succ count inductionHypothesis =>
      refine (half _ position).bind fun index => (typeAt container index).bind fun descriptor => ?_
      exact (inductionHypothesis _).bind fun others => ok (descriptor :: others)

theorem parametersAt (start : Nat) : OnlyMalformed (container.parametersAt start) := by
  rw [Container.parametersAt]
  split
  · exact ok []
  · exact (word32 _ start).bind fun count => typeList container count (start + 4)

theorem protoAt (index : Nat) : OnlyMalformed (container.protoAt index) := by
  refine (entry _ index).bind fun place => (word32 _ place).bind fun shorty => ?_
  refine (word32 _ (place + 4)).bind fun returnType => (word32 _ (place + 8)).bind fun start => ?_
  refine (parametersAt container start).bind fun parameters => ?_
  exact (stringAt container shorty).bind fun _ => (typeAt container returnType).bind fun _ => ok _

theorem methodAt (index : Nat) : OnlyMalformed (container.methodAt index) := by
  refine (entry _ index).bind fun place => (half _ place).bind fun classIndex => ?_
  refine (half _ (place + 2)).bind fun protoIndex => (word32 _ (place + 4)).bind fun name => ?_
  exact (stringAt container name).bind fun _ => ok _

theorem classAt (index : Nat) : OnlyMalformed (container.classAt index) := by
  refine (entry _ index).bind fun place => (word32 _ place).bind fun classIndex => ?_
  refine (word32 _ _).bind fun accessFlags => (word32 _ _).bind fun superclassIndex => ?_
  exact (word32 _ _).bind fun dataStart => ok _

theorem className (entry : ClassEntry) : OnlyMalformed (container.className entry) :=
  (typeAt container entry.classIndex).map _

theorem classNames : OnlyMalformed container.classNames :=
  mapM (fun index => (classAt container index).bind (className container)) _

theorem superclassName (entry : ClassEntry) : OnlyMalformed (container.superclassName entry) := by
  rw [Container.superclassName]
  split
  · exact ok none
  · exact (typeAt container entry.superclassIndex).map _

theorem classMethods (entry : ClassEntry) : OnlyMalformed (container.classMethods entry) := by
  rw [Container.classMethods]
  split
  · exact ok ([], [])
  · refine (varint _ _).bind fun staticFields => (varint _ _).bind fun instanceFields => ?_
    refine (varint _ _).bind fun directCount => (varint _ _).bind fun virtualCount => ?_
    refine (skipVarints _ _ _).bind fun position => (methodEntries _ _ _ _).bind fun direct => ?_
    exact (methodEntries _ _ _ _).bind fun virtual => ok _

theorem describeMethod (entry : MethodEntry) : OnlyMalformed (container.describeMethod entry) :=
  (methodAt container entry.methodIndex).bind fun reference =>
    (protoAt container reference.protoIndex).bind fun _ => ok _

theorem codeUnits (start : Nat) : OnlyMalformed (container.codeUnits start) :=
  (word32 _ (start + 12)).bind fun count => unitsAt _ count (start + 16)

theorem decodeCode (start : Nat) (units : List UInt16) :
    OnlyMalformed (Dex.decodeCode start units) := by
  rw [Dex.decodeCode]
  split
  · exact ok _
  · exact flaw _ _

end Containers

end OnlyMalformed

end ByteListing.Dex
