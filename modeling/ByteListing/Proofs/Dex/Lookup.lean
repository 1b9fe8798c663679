import ByteListing.Proofs.Dex.ClassData
import ByteListing.Proofs.Dex.Disassembly
import ByteListing.Proofs.Dex.Tables

/-! # Classes and methods looked up

Every class of a container that was laid out stands where it is told to (`isLaidOut_of_mem`), so
its entry is read with its name, its superclass and its methods.  Looking for a name goes through
the classes in the order in which they were laid out (`locate_container`), and what is found is
described as by the contents themselves.

`read_octets` puts everything together: from the octets of a container its classes, their methods
and the code of those are read as they were laid out, and instructions that were assembled are
written with the names that they refer to. -/
set_option autoImplicit false
namespace ByteListing.Dex

theorem mapM_eq_ok {Item Value : Type} {read : Item → Except Fault Value} {value : Item → Value}
    {items : List Item} (reads : ∀ item ∈ items, read item = .ok (value item)) :
    items.mapM read = .ok (items.map value) := by
  induction items with
  | nil => rfl
  | cons item rest inductionHypothesis =>
      have later := inductionHypothesis fun other member =>
        reads other (List.mem_cons_of_mem item member)
      rw [List.mapM_cons, reads item (List.mem_cons_self ..), later]
      rfl

theorem range_eq_numbers {Item : Type} (items : List Item) :
    List.range items.length = items.zipIdx.map Prod.snd := by
  rw [List.zipIdx_map_snd, List.range_eq_range']

namespace Contents

variable (contents : Contents)

theorem isLaidOut_of_mem {placed : PlacedClass contents.types.length contents.methods.length}
    (member : placed ∈ contents.placedClasses.1) : placed.IsLaidOut contents.octets := by
  obtain ⟨place, item, beyond, rfl, held⟩ :=
    step_of_mem_layOut contents.regions.classData member
  have positive := contents.classDataStart_pos
  exact ClassItem.isLaidOut_place (by omega) held

theorem size_classes : contents.container.classes.size = contents.placedClasses.1.length := by
  rw [← List.length_map PlacedClass.item, map_placedClasses]
  rfl

theorem method?_describeClass
    (declared : PlacedClass contents.types.length contents.methods.length) (name : String) :
    (contents.describeClass declared).method? name =
      (contents.method? declared name).map contents.describeMethod := by
  rw [Class.method?, Class.methods, describeClass, ← List.map_append, List.find?_map]
  rfl

theorem hasCode_describeMethod {method : ClassMethod contents.methods.length} {start : Nat}
    (stands : Stands contents.octets method.codeItem? start) :
    (contents.describeMethod (method, start)).hasCode = method.code.isSome := by
  rw [ClassMethod.codeItem?] at stands
  cases code : method.code with
  | none =>
      rw [code] at stands
      obtain rfl : start = 0 := stands
      rfl
  | some units =>
      rw [code] at stands
      have positive : 0 < start := stands.1
      have somewhere : start ≠ 0 := by omega
      exact bne_iff_ne.mpr somewhere

section Small

variable (small : contents.octets.length < 2 ^ 32)
include small

/-! ## Entries of classes -/

theorem classAt_container {index : Nat}
    {placed : PlacedClass contents.types.length contents.methods.length}
    (found : contents.placedClasses.1[index]? = some placed) :
    contents.container.classAt index = .ok placed.entry := by
  have inside : index < contents.classes.length := by
    rw [← contents.map_placedClasses, List.length_map]
    exact (List.getElem?_eq_some_iff.mp found).1
  have told := contents.regions.classes.entry PlacedClass.length_octets found
  have behindType := told.behind_octets
  have behindFlags := behindType.behind_octets
  have behindRest := behindFlags.behind_octets.behind
  have superclassSmall :
      (placed.item.superclass.map Fin.val).getD Container.noIndex < 2 ^ 32 := by
    cases placed.item.superclass with
    | none =>
        rw [Option.map_none, Option.getD_none]
        decide
    | some superclass => exact contents.type_small small superclass
  have startLe :=
    (contents.isLaidOut_of_mem (List.mem_of_getElem? found)).declared.start_le
  have readType := word32_of_holds told.front (contents.type_small small _)
  have readFlags := word32_of_holds behindType.front placed.item.accessFlags.toNat_lt
  have readSuperclass : word32 contents.octets (contents.classesStart + index * 32 + 8) =
      .ok placed.entry.superclassIndex := word32_of_holds behindFlags.front superclassSmall
  have readStart : word32 contents.octets (contents.classesStart + index * 32 + 24) =
      .ok placed.dataStart := word32_of_holds behindRest.front (by omega)
  have entry : contents.container.classes.entry index =
      .ok (contents.classesStart + index * 32) := Table.entry_placed inside
  simp only [Container.classAt, entry, data_container, readType, readFlags, readSuperclass,
    readStart, bind, Except.bind]
  rfl

theorem className_container
    (placed : PlacedClass contents.types.length contents.methods.length) :
    contents.container.className placed.entry = .ok (contents.className placed.item) := by
  have named := contents.typeAt_container small placed.item.type
  rw [Container.className, PlacedClass.entry, named]
  rfl

theorem superclassName_container
    (placed : PlacedClass contents.types.length contents.methods.length) :
    contents.container.superclassName placed.entry = .ok (placed.item.superclass.map fun type =>
      TypeName.ofDescriptor (contents.descriptor type)) := by
  cases above : placed.item.superclass with
  | none =>
      simp only [Container.superclassName, PlacedClass.entry, above, Option.map_none,
        Option.getD_none, if_true]
  | some superclass =>
      -- The table of types lies in the container, so that no index in it stands for no class.
      have bound := contents.regions.types.bound
      rw [length_typeTable] at bound
      have other : ¬ superclass.val = Container.noIndex := by
        have inside := superclass.isLt
        rw [Container.noIndex]
        omega
      have named := contents.typeAt_container small superclass
      simp only [Container.superclassName, PlacedClass.entry, above, Option.map_some,
        Option.getD_some, other, if_false, named, Except.map]

theorem classMethods_container
    {placed : PlacedClass contents.types.length contents.methods.length}
    (member : placed ∈ contents.placedClasses.1) :
    contents.container.classMethods placed.entry =
      .ok (placed.direct.map methodEntry, placed.virtual.map methodEntry) := by
  have bound := contents.regions.methods.bound
  rw [length_methodTable] at bound
  exact classMethods_of_isLaidOut (by omega) small (contents.isLaidOut_of_mem member)

theorem describeMethod_container (method : ClassMethod contents.methods.length × Nat) :
    contents.container.describeMethod (methodEntry method) =
      .ok (contents.describeMethod method) := by
  have referred := contents.methodAt_container small method.1.method
  have typed := contents.protoAt_container small
    (widen contents.methods[method.1.method].proto)
  simp only [widen, Fin.val_castLE] at typed
  simp only [Container.describeMethod, methodEntry, referred, typed, bind, Except.bind]
  rfl

/-! ## Names -/

theorem classNames_container :
    contents.container.classNames = .ok (contents.classes.map contents.className) := by
  have names : ∀ numbered ∈ contents.placedClasses.1.zipIdx,
      contents.container.classNameAt numbered.2 =
        .ok (contents.className numbered.1.item) := by
    intro numbered member
    have found := List.mem_zipIdx_iff_getElem?.mp member
    rw [Container.classNameAt, contents.classAt_container small found]
    exact contents.className_container small numbered.1
  have read := mapM_eq_ok names
  have unnumbered : contents.placedClasses.1.zipIdx.map
      (fun numbered => contents.className numbered.1.item) =
        contents.classes.map contents.className := by
    calc contents.placedClasses.1.zipIdx.map (fun numbered => contents.className numbered.1.item)
        = ((contents.placedClasses.1.zipIdx.map Prod.fst).map PlacedClass.item).map
            contents.className := by
          rw [List.map_map, List.map_map]
          rfl
      _ = contents.classes.map contents.className := by
          rw [List.zipIdx_map_fst, map_placedClasses]
  rw [Container.classNames, size_classes, range_eq_numbers, List.mapM_map, ← unnumbered]
  exact read

theorem locate_container (name : String)
    {numbered : List (PlacedClass contents.types.length contents.methods.length × Nat)}
    (placed : ∀ pair ∈ numbered, contents.placedClasses.1[pair.2]? = some pair.1) :
    contents.container.locate name (numbered.map Prod.snd) =
      match (numbered.map Prod.fst).find?
        (fun declared => contents.className declared.item == name) with
      | none => .error (.classNotFound name)
      | some declared => .ok declared.entry := by
  induction numbered with
  | nil => rfl
  | cons pair rest inductionHypothesis =>
      have later := inductionHypothesis fun other member =>
        placed other (List.mem_cons_of_mem pair member)
      have first := contents.classAt_container small (placed pair (List.mem_cons_self ..))
      have named := contents.className_container small pair.1
      simp only [List.map_cons, Container.locate, first, named, bind, Except.bind]
      by_cases same : (contents.className pair.1.item == name) = true
      · simp only [same, List.find?_cons, if_true]
        rfl
      · simp only [same, List.find?_cons]
        exact later

theorem findClass_container (name : String) :
    contents.container.findClass name =
      match contents.find? name with
      | none => .error (.classNotFound name)
      | some declared => .ok (contents.describeClass declared) := by
  have located := contents.locate_container small name
    (fun pair member => List.mem_zipIdx_iff_getElem?.mp member)
  rw [← range_eq_numbers, List.zipIdx_map_fst, ← size_classes] at located
  rw [Container.findClass, located, find?]
  cases found : contents.placedClasses.1.find?
      (fun declared => contents.className declared.item == name) with
  | none => rfl
  | some declared =>
      have member := List.mem_of_find?_eq_some found
      have named := List.find?_some found
      simp only [beq_iff_eq] at named
      have described (listed : List (ClassMethod contents.methods.length × Nat)) :
          (listed.map methodEntry).mapM contents.container.describeMethod =
            .ok (listed.map contents.describeMethod) := by
        rw [List.mapM_map]
        exact mapM_eq_ok fun method _ => contents.describeMethod_container small method
      have typed : contents.container.typeAt declared.entry.classIndex =
          .ok (contents.descriptor declared.item.type) :=
        contents.typeAt_container small declared.item.type
      simp only [contents.classMethods_container small member, typed,
        contents.superclassName_container small declared, described, bind, Except.bind,
        describeClass, named]
      rfl

/-! ## Methods -/

theorem codeUnits_container {units : List UInt16} {start : Nat}
    (held : Holds contents.octets start (codeItem units)) :
    contents.container.codeUnits start = .ok units := by
  have bound := held.bound
  simp only [codeItem, List.length_append, length_unitOctets] at bound
  have behindHead := held.behind
  have behindCount := behindHead.behind_octets
  have readCount := word32_of_holds behindHead.front (by omega)
  have readUnits := unitsAt_of_holds behindCount
  have headLength : codeHead.length = 12 := rfl
  simp only [headLength, Nat.add_assoc, Nat.reduceAdd] at readCount readUnits
  simp only [Container.codeUnits, data_container, readCount, bind, Except.bind]
  exact readUnits

theorem listInstructions_octets (name methodName : String) :
    listInstructions contents.octets name methodName =
      match contents.find? name with
      | none => .error (.classNotFound name)
      | some declared =>
        match contents.method? declared methodName with
        | none => .error (.methodNotFound name methodName)
        | some method => (method.1.instructions method.2).map fun instructions =>
            (contents.pool, instructions) := by
  have parsed := contents.parse_octets small
  have lookedUp := contents.findClass_container small name
  cases found : contents.find? name with
  | none =>
      rw [found] at lookedUp
      simp only [listInstructions, parsed, lookedUp, bind, Except.bind]
  | some declared =>
      rw [found] at lookedUp
      have selected := contents.method?_describeClass declared methodName
      cases chosen : contents.method? declared methodName with
      | none =>
          rw [chosen, Option.map_none] at selected
          simp only [listInstructions, parsed, lookedUp, selected, chosen, bind, Except.bind]
          rfl
      | some method =>
          obtain ⟨method, start⟩ := method
          rw [chosen, Option.map_some] at selected
          have laidOut := contents.isLaidOut_of_mem (List.mem_of_find?_eq_some found)
          have stands : Stands contents.octets method.codeItem? start :=
            laidOut.codes (method, start) (List.mem_of_find?_eq_some chosen)
          have hasCode := contents.hasCode_describeMethod stands
          have codeStart : (contents.describeMethod (method, start)).codeStart = start := rfl
          rw [ClassMethod.codeItem?] at stands
          simp only [listInstructions, parsed, lookedUp, selected, chosen, hasCode, codeStart,
            bind, Except.bind, ClassMethod.instructions, pool_container, small]
          cases code : method.code with
          | none => rfl
          | some units =>
              rw [code] at stands
              have read := contents.codeUnits_container small stands.2
              simp only [read, Option.isSome_some, if_true]
              cases decodeCode start units <;> rfl

theorem text_listInstructions_octets {name methodName : String}
    {declared : PlacedClass contents.types.length contents.methods.length}
    (found : contents.find? name = some declared)
    {method : ClassMethod contents.methods.length × Nat}
    (chosen : contents.method? declared methodName = some method) {program : List Code}
    (written : method.1.code = some (assemble program)) :
    (listInstructions contents.octets name methodName).map (fun (pool, instructions) =>
      instructions.map (Instruction.text pool)) = .ok (program.map (Code.line contents.pool)) := by
  have listed := contents.listInstructions_octets small name methodName
  simp only [found, chosen, ClassMethod.instructions, written, decodeCode_placed] at listed
  rw [listed, ← text_placed program contents.pool 0]
  rfl

/-- What is read of a container that was laid out is what was laid out in it, in the same order,
with each piece told to be where it stands.  Of a method that was assembled the instructions are
listed as they were written, with what the entries of the tables stand for as references. -/
theorem read_octets :
    listClasses contents.octets = .ok (contents.classes.map contents.className) ∧
    contents.placedClasses.1.map PlacedClass.item = contents.classes ∧
    (∀ placed ∈ contents.placedClasses.1, placed.IsLaidOut contents.octets) ∧
    (∀ name, findClass contents.octets name =
      match contents.find? name with
      | none => .error (.classNotFound name)
      | some declared => .ok (contents.describeClass declared)) ∧
    (∀ name methodName, listInstructions contents.octets name methodName =
      match contents.find? name with
      | none => .error (.classNotFound name)
      | some declared =>
        match contents.method? declared methodName with
        | none => .error (.methodNotFound name methodName)
        | some method => (method.1.instructions method.2).map fun instructions =>
            (contents.pool, instructions)) ∧
    ∀ name methodName declared method program, contents.find? name = some declared →
      contents.method? declared methodName = some method →
      method.1.code = some (assemble program) →
      (listInstructions contents.octets name methodName).map (fun (pool, instructions) =>
        instructions.map (Instruction.text pool)) =
          .ok (program.map (Code.line contents.pool)) := by
  have parsed := contents.parse_octets small
  refine ⟨?_, contents.map_placedClasses, fun _ member => contents.isLaidOut_of_mem member, ?_,
    contents.listInstructions_octets small, ?_⟩
  · rw [listClasses, parsed]
    exact contents.classNames_container small
  · intro name
    rw [findClass, parsed]
    exact contents.findClass_container small name
  · intro name methodName declared method program found chosen written
    exact contents.text_listInstructions_octets small found chosen written

end Small

/-- A string, a call of a method, and the end. -/
def ownCall : List Code := [
  .operation ⟨0x1B, "const-string/jumbo", .f31c, some .string⟩ (by decide) (.f31c .string 0 3) 0
    nofun,
  .operation ⟨0x71, "invoke-static", .f35c, some .method⟩ (by decide)
    (.f35c .method [0] (Nat.le_add_left 1 4) 0) 0 nofun,
  .operation ⟨0x0E, "return-void", .f10x, none⟩ (by decide) .f10x 0 nofun]

/-- Two classes of one name.  The first has a method with code and one without. -/
def namesakes : Contents where
  strings := ["LA;", "V", "VL", "run"]
  types := [0, 1]
  protos := [⟨2, 1, [⟨0, by decide⟩]⟩]
  fields := []
  methods := [⟨⟨0, by decide⟩, ⟨0, by decide⟩, 3⟩]
  classes := [
    ⟨0, 1, none, some ⟨[(0, 2)], [], [⟨0, 9, some (assemble ownCall)⟩], [⟨0, 1025, none⟩],
      List.pairwise_singleton .., List.pairwise_singleton ..⟩⟩,
    ⟨0, 1, some 1, none⟩]

theorem read_namesakes :
    namesakes.octets.length < 2 ^ 32 ∧
    (listClasses namesakes.octets).toOption = some ["A", "A"] ∧
    (findClass namesakes.octets "A").toOption = some ⟨"A", "LA;", 1, none,
      [⟨"run", "VL", "void", ["LA;"], 9, 248⟩], [⟨"run", "VL", "void", ["LA;"], 1025, 0⟩]⟩ ∧
    (listInstructions namesakes.octets "A" "run").toOption.map Prod.snd = some [
      ⟨0, .operation ⟨0x1B, "const-string/jumbo", .f31c, some .string⟩
        [.register 0, .reference .string 3]⟩,
      ⟨3, .operation ⟨0x71, "invoke-static", .f35c, some .method⟩
        [.registers [0], .reference .method 0]⟩,
      ⟨6, .operation ⟨0x0E, "return-void", .f10x, none⟩ []⟩] ∧
    (listInstructions namesakes.octets "A" "run").map (fun (pool, instructions) =>
      instructions.map (Instruction.text pool)) = .ok ["  const-string/jumbo v0, \"run\"",
        "  invoke-static \x7bv0\x7d, LA;->run(LA;)V", "  return-void"] := by
  have small : namesakes.octets.length < 2 ^ 32 := by decide +kernel
  obtain ⟨names, -, -, found, read, written⟩ := namesakes.read_octets small
  have first : ∃ declared method, namesakes.find? "A" = some declared ∧
      namesakes.method? declared "run" = some method ∧
      method.1.code = some (assemble ownCall) := by
    exact ⟨_, _, rfl, rfl, rfl⟩
  obtain ⟨declared, method, foundFirst, chosen, code⟩ := first
  refine ⟨small, ?_, ?_, ?_, ?_⟩
  · rw [names]
    decide +kernel
  · rw [found]
    decide +kernel
  · rw [read]
    decide +kernel
  · rw [written "A" "run" declared method ownCall foundFirst chosen code]
    exact congrArg Except.ok (by decide +kernel)

end Contents

end ByteListing.Dex
