import ByteListing.Proofs.Dex.Faults
import ByteListing.Proofs.Steps

/-! # Queries that agree with each other

The queries read a container each on its own and stop at different places.  Still they tell of the
same classes and methods: a class is found exactly if it is listed in front of everything that
cannot be read, and then as the first of its name, and a method is found exactly if it is listed for
its class. -/
set_option autoImplicit false
namespace ByteListing.Dex

/-! ## Names and indices -/

def NamesOf (container : Container) (names : List String) : Prop :=
  List.Forall₂ (fun index name => container.classNameAt index = .ok name)
    (List.range names.length) names

theorem NamesOf.split {container : Container} {before after : List String} {name : String}
    (named : NamesOf container (before ++ name :: after)) :
    NamesOf container before ∧ container.classNameAt before.length = .ok name := by
  -- Each part of the names stands over its part of the range of indices.
  have front := List.forall₂_take_append _ _ _ named
  have back := List.forall₂_drop_append _ _ _ named
  have inside : before.length ≤ (before ++ name :: after).length := by simp
  rw [List.take_range, Nat.min_eq_left inside] at front
  obtain ⟨index, indices, first, -, indicesEq⟩ := List.forall₂_cons_right_iff.mp back
  rw [List.range_eq_range', List.drop_range'] at indicesEq
  obtain ⟨rfl, -⟩ := List.range'_eq_cons_iff.mp indicesEq
  exact ⟨front, by simpa using first⟩

theorem range_split {index size : Nat} (inside : index < size) :
    ∃ rest, List.range size = List.range index ++ index :: rest := by
  refine ⟨List.range' (index + 1) (size - index - 1), ?_⟩
  have behind : List.range' (0 + index * 1) (size - index) =
      index :: List.range' (index + 1) (size - index - 1) :=
    List.range'_eq_cons_iff.mpr ⟨by omega, by omega, rfl⟩
  rw [List.range_eq_range', List.range_eq_range']
  exact List.range'_eq_append_iff.mpr ⟨index, Nat.le_of_lt inside, rfl, behind.symm⟩

theorem range_of_split {size index : Nat} {before after : List Nat}
    (split : List.range size = before ++ index :: after) :
    before = List.range index ∧ index < size := by
  rw [List.range_eq_range'] at split
  obtain ⟨count, small, rfl, behind⟩ := List.range'_eq_append_iff.mp split
  obtain ⟨same, occupied, -⟩ := List.range'_eq_cons_iff.mp behind.symm
  obtain rfl : count = index := by omega
  exact ⟨List.range_eq_range'.symm, by omega⟩

/-! ## Looking for a name -/

section Locate

variable {container : Container} {name : String}

theorem locate_behind {indices : List Nat} {names : List String}
    (named : List.Forall₂ (fun index other => container.classNameAt index = .ok other)
      indices names)
    (unlisted : name ∉ names) (rest : List Nat) :
    container.locate name (indices ++ rest) = container.locate name rest := by
  induction named with
  | nil => rfl
  | @cons index other indices names first _ inductionHypothesis =>
      simp only [List.mem_cons, not_or] at unlisted
      obtain ⟨entry, placed, classNamed⟩ := exists_of_bind_eq_ok first
      have different : ¬ (other == name) = true := by simpa using Ne.symm unlisted.1
      simp only [List.cons_append, Container.locate, placed, classNamed, bind, Except.bind,
        different]
      exact inductionHypothesis unlisted.2

theorem locate_here {index : Nat} (named : container.classNameAt index = .ok name)
    (rest : List Nat) :
    ∃ entry, container.classAt index = .ok entry ∧ container.className entry = .ok name ∧
      container.locate name (index :: rest) = .ok entry := by
  obtain ⟨entry, placed, classNamed⟩ := exists_of_bind_eq_ok named
  refine ⟨entry, placed, classNamed, ?_⟩
  simp [Container.locate, placed, classNamed, bind, Except.bind, pure, Except.pure]

theorem locate_stuck {index : Nat} {fault : Fault}
    (stuck : container.classNameAt index = .error fault) (rest : List Nat) :
    container.locate name (index :: rest) = .error fault := by
  rw [Container.classNameAt] at stuck
  rw [Container.locate]
  cases placed : container.classAt index with
  | error cause =>
      rw [placed] at stuck
      cases stuck
      rfl
  | ok entry =>
      rw [placed] at stuck
      have unnamed : container.className entry = .error fault := stuck
      simp only [unnamed, bind, Except.bind]

theorem locate_listed {before after : List String}
    (named : NamesOf container (before ++ name :: after)) (unlisted : name ∉ before)
    (inside : (before ++ name :: after).length ≤ container.classes.size) :
    ∃ entry, container.classAt before.length = .ok entry ∧ container.className entry = .ok name ∧
      container.locate name (List.range container.classes.size) = .ok entry := by
  obtain ⟨earlier, here⟩ := named.split
  have within : before.length < container.classes.size := by
    simp only [List.length_append, List.length_cons] at inside
    omega
  obtain ⟨rest, indices⟩ := range_split within
  rw [indices, locate_behind earlier unlisted]
  exact locate_here here rest

end Locate

/-! ## What is found of a class -/

structure Describes (container : Container) (entry : ClassEntry) (declared : Class) : Prop where
  name : container.className entry = .ok declared.name
  descriptor : container.typeAt entry.classIndex = .ok declared.descriptor
  accessFlags : declared.accessFlags = entry.accessFlags
  superclass : container.superclassName entry = .ok declared.superclass
  methods : ∃ direct virtual, container.classMethods entry = .ok (direct, virtual) ∧
    direct.mapM container.describeMethod = .ok declared.directMethods ∧
    virtual.mapM container.describeMethod = .ok declared.virtualMethods

/-- What a look-up gives once it has found an entry: the class that the entry describes, or where
the container is malformed if the entry describes none. -/
inductive Described (container : Container) (entry : ClassEntry) : Except Fault Class → Prop
  | described {declared : Class} :
      Describes container entry declared → Described container entry (.ok declared)
  | unreadable {position : Nat} {details : String} :
      (∀ declared, ¬ Describes container entry declared) →
      Described container entry (.error (.malformedContainer position details))

section Found

variable {container : Container} {name : String} {entry : ClassEntry}
  (located : container.locate name (List.range container.classes.size) = .ok entry)
  (named : container.className entry = .ok name)
include located named

theorem findClass_eq_ok_iff {declared : Class} :
    container.findClass name = .ok declared ↔ Describes container entry declared := by
  rw [Container.findClass, located]
  constructor
  · intro success
    obtain ⟨found, ⟨⟩, success⟩ := exists_of_bind_eq_ok success
    obtain ⟨⟨direct, virtual⟩, methodsRead, success⟩ := exists_of_bind_eq_ok success
    obtain ⟨descriptor, typed, success⟩ := exists_of_bind_eq_ok success
    obtain ⟨superclass, above, success⟩ := exists_of_bind_eq_ok success
    obtain ⟨directMethods, directDescribed, success⟩ := exists_of_bind_eq_ok success
    obtain ⟨virtualMethods, virtualDescribed, success⟩ := exists_of_bind_eq_ok success
    obtain rfl := Except.ok.inj success
    exact ⟨named, typed, rfl, above, direct, virtual, methodsRead, directDescribed,
      virtualDescribed⟩
  · rintro ⟨classNamed, typed, flags, above, direct, virtual, methodsRead, directDescribed,
      virtualDescribed⟩
    have sameName : name = declared.name := Except.ok.inj (named.symm.trans classNamed)
    simp only [methodsRead, typed, above, directDescribed, virtualDescribed, sameName, ← flags,
      bind, Except.bind, pure, Except.pure]

omit named in
theorem onlyMalformed_findClass : OnlyMalformed (container.findClass name) := by
  rw [Container.findClass, located]
  refine (OnlyMalformed.ok entry).bind fun entry => ?_
  refine (OnlyMalformed.classMethods container entry).bind fun methods => ?_
  refine (OnlyMalformed.typeAt container entry.classIndex).bind fun descriptor => ?_
  refine (OnlyMalformed.superclassName container entry).bind fun superclass => ?_
  refine (OnlyMalformed.mapM (OnlyMalformed.describeMethod container) _).bind fun direct => ?_
  refine (OnlyMalformed.mapM (OnlyMalformed.describeMethod container) _).bind fun virtual => ?_
  exact .ok _

theorem described_findClass : Described container entry (container.findClass name) := by
  cases found : container.findClass name with
  | ok declared => exact .described ((findClass_eq_ok_iff located named).mp found)
  | error fault =>
      obtain ⟨position, details, rfl⟩ := onlyMalformed_findClass located fault found
      refine .unreadable fun declared describes => ?_
      rw [(findClass_eq_ok_iff located named).mpr describes] at found
      cases found

end Found

theorem Described.ne_classNotFound {container : Container} {entry : ClassEntry}
    {found : Except Fault Class} (described : Described container entry found) (name : String) :
    found ≠ .error (.classNotFound name) := by
  cases described <;> nofun

/-! ## Listed classes -/

/-- Names of classes are looked up among those of the first classes: the first class of a name is
found, and for any other name the search ends with a fault. -/
structure LooksUp (data : Bytes) (container : Container) (names : List String)
    (missing : String → Fault) : Prop where
  named : NamesOf container names
  listed : ∀ before name after, names = before ++ name :: after → name ∉ before →
    ∃ entry, container.classAt before.length = .ok entry ∧
      Described container entry (findClass data name)
  unlisted : ∀ name, name ∉ names → findClass data name = .error (missing name)

section Listed

variable {data : Bytes} {container : Container}

theorem namesOf_of_classNames {names : List String} (listed : container.classNames = .ok names) :
    names.length = container.classes.size ∧ NamesOf container names := by
  have named := forall₂_of_mapM_eq_ok listed
  have lengths := named.length_eq
  rw [List.length_range] at lengths
  rw [NamesOf, ← lengths]
  exact ⟨rfl, named⟩

theorem namesOf_of_stuck {fault : Fault} (stuck : container.classNames = .error fault) :
    ∃ names, names.length < container.classes.size ∧ NamesOf container names ∧
      container.classNameAt names.length = .error fault := by
  obtain ⟨before, index, after, names, split, named, unnamed⟩ := split_of_mapM_eq_error stuck
  obtain ⟨rfl, inside⟩ := range_of_split split
  have lengths := named.length_eq
  rw [List.length_range] at lengths
  subst lengths
  exact ⟨names, inside, named, unnamed⟩

theorem LooksUp.classNotFound_iff {names : List String}
    (lookups : LooksUp data container names .classNotFound) (name : String) :
    findClass data name = .error (.classNotFound name) ↔ name ∉ names := by
  constructor
  · intro missing listed
    obtain ⟨before, after, split, first⟩ := List.eq_append_cons_of_mem listed
    obtain ⟨entry, -, described⟩ := lookups.listed before name after split first
    exact described.ne_classNotFound name missing
  · exact lookups.unlisted name

variable (parsed : Container.parse data = .ok container)
include parsed

theorem findClass_parsed (name : String) : findClass data name = container.findClass name := by
  rw [findClass, parsed]
  rfl

theorem looksUp {names : List String} {missing : String → Fault}
    (named : NamesOf container names) (inside : names.length ≤ container.classes.size)
    (ends : ∀ name, name ∉ names →
      container.locate name (List.range container.classes.size) = .error (missing name)) :
    LooksUp data container names missing := by
  refine ⟨named, ?_, ?_⟩
  · rintro before name after rfl first
    obtain ⟨entry, placed, classNamed, located⟩ := locate_listed named first inside
    rw [findClass_parsed parsed]
    exact ⟨entry, placed, described_findClass located classNamed⟩
  · intro name unlisted
    rw [findClass_parsed parsed, Container.findClass, ends name unlisted]
    rfl

theorem looksUp_all {names : List String} (listed : container.classNames = .ok names) :
    LooksUp data container names .classNotFound := by
  obtain ⟨lengths, named⟩ := namesOf_of_classNames listed
  refine looksUp parsed named (Nat.le_of_eq lengths) fun name unlisted => ?_
  have searched := locate_behind named unlisted []
  rwa [List.append_nil, lengths] at searched

theorem looksUp_until {names : List String} {fault : Fault} (named : NamesOf container names)
    (inside : names.length < container.classes.size)
    (stuck : container.classNameAt names.length = .error fault) :
    LooksUp data container names fun _ => fault := by
  refine looksUp parsed named (Nat.le_of_lt inside) fun name unlisted => ?_
  obtain ⟨rest, indices⟩ := range_split inside
  rw [indices, locate_behind named unlisted, locate_stuck stuck]

/-! ## Listed methods -/

theorem listInstructions_found {className : String} {declared : Class}
    (found : findClass data className = .ok declared) (methodName : String) :
    listInstructions data className methodName =
      match declared.method? methodName with
      | none => .error (.methodNotFound className methodName)
      | some method =>
        if method.codeStart = 0 then .ok (container.pool, [])
        else ((container.codeUnits method.codeStart).bind (decodeCode method.codeStart)).map
          (container.pool, ·) := by
  rw [findClass_parsed parsed] at found
  simp only [listInstructions, parsed, found, bind, Except.bind]
  cases chosen : declared.method? methodName with
  | none => rfl
  | some method =>
      by_cases noCode : method.codeStart = 0
      · simp [Method.hasCode, noCode, pure, Except.pure]
      · simp only [Method.hasCode, noCode]
        cases container.codeUnits method.codeStart with
        | error fault => simp [noCode, Except.map]
        | ok units =>
            cases decodeCode method.codeStart units <;> simp [noCode, Except.map, pure, Except.pure]

theorem listInstructions_listed {className methodName : String} {methods : List Method}
    (listed : listMethods data className = .ok methods) :
    (listInstructions data className methodName = .error (.methodNotFound className methodName) ↔
      ∀ method ∈ methods, method.name ≠ methodName) ∧
    ∀ before method after, methods = before ++ method :: after →
      (∀ earlier ∈ before, earlier.name ≠ methodName) → method.name = methodName →
      listInstructions data className methodName =
        if method.codeStart = 0 then .ok (container.pool, [])
        else ((container.codeUnits method.codeStart).bind (decodeCode method.codeStart)).map
          (container.pool, ·) := by
  obtain ⟨declared, found, rfl⟩ := exists_of_map_eq_ok listed
  have read := listInstructions_found parsed found methodName
  constructor
  · cases chosen : declared.method? methodName with
    | none =>
        rw [read, chosen]
        have others := List.find?_eq_none.mp chosen
        simpa using others
    | some method =>
        have member := List.mem_of_find?_eq_some chosen
        have named : method.name = methodName := by simpa using List.find?_some chosen
        have only : OnlyMalformed (listInstructions data className methodName) := by
          rw [read, chosen]
          dsimp only
          split
          · exact .ok _
          · exact ((OnlyMalformed.codeUnits container method.codeStart).bind
              (OnlyMalformed.decodeCode method.codeStart)).map _
        constructor
        · intro missing
          obtain ⟨position, details, other⟩ := only _ missing
          cases other
        · intro others
          exact absurd named (others method member)
  · intro before method after split others named
    have chosen : declared.method? methodName = some method := by
      rw [Class.method?, split, List.find?_eq_some_iff_append]
      exact ⟨by simpa using named, before, after, rfl, by simpa using others⟩
    rw [read, chosen]

end Listed

theorem listInstructions_missing {data : Bytes} {className : String} {fault : Fault}
    (missing : findClass data className = .error fault) (methodName : String) :
    listInstructions data className methodName = .error fault := by
  cases parsed : Container.parse data with
  | error cause =>
      rw [findClass, parsed] at missing
      obtain rfl := Except.error.inj missing
      rw [listInstructions, parsed]
      rfl
  | ok container =>
      rw [findClass_parsed parsed] at missing
      simp only [listInstructions, parsed, missing, bind, Except.bind]

/-- The queries of a container agree with each other.  Where all classes are listed, a class is
found exactly if it is listed, and as the first of its name; where the list ends with a fault at
some class, those before it are found and everything else has that fault.  The methods of a class
are listed exactly if it is found, the direct ones first.  The instructions of a method are those at
the start of the code of the first listed method of its name. -/
theorem queries_agree (data : Bytes) (className methodName : String) :
    (∀ names, listClasses data = .ok names →
      ∃ container, Container.parse data = .ok container ∧
        names.length = container.classes.size ∧
        LooksUp data container names .classNotFound ∧
        (findClass data className = .error (.classNotFound className) ↔ className ∉ names)) ∧
    (∀ fault, listClasses data = .error fault →
      (Container.parse data = .error fault ∧ findClass data className = .error fault) ∨
      ∃ container names, Container.parse data = .ok container ∧
        names.length < container.classes.size ∧
        container.classNameAt names.length = .error fault ∧
        LooksUp data container names fun _ => fault) ∧
    (∀ declared, findClass data className = .ok declared →
      listMethods data className = .ok (declared.directMethods ++ declared.virtualMethods)) ∧
    (∀ fault, findClass data className = .error fault →
      listMethods data className = .error fault ∧
      listInstructions data className methodName = .error fault) ∧
    ∀ methods, listMethods data className = .ok methods →
      ∃ container, Container.parse data = .ok container ∧
        (listInstructions data className methodName =
            .error (.methodNotFound className methodName) ↔
          ∀ method ∈ methods, method.name ≠ methodName) ∧
        ∀ before method after, methods = before ++ method :: after →
          (∀ earlier ∈ before, earlier.name ≠ methodName) → method.name = methodName →
          listInstructions data className methodName =
            if method.codeStart = 0 then .ok (container.pool, [])
            else ((container.codeUnits method.codeStart).bind (decodeCode method.codeStart)).map
              (container.pool, ·) := by
  refine ⟨?_, ?_, ?_, ?_, ?_⟩
  · intro names listed
    obtain ⟨container, parsed, classNames⟩ := exists_of_bind_eq_ok listed
    have lookups := looksUp_all parsed classNames
    exact ⟨container, parsed, (namesOf_of_classNames classNames).1, lookups,
      lookups.classNotFound_iff className⟩
  · intro fault stuck
    rw [listClasses] at stuck
    cases parsed : Container.parse data with
    | error cause =>
        rw [parsed] at stuck
        obtain rfl := Except.error.inj stuck
        refine .inl ⟨rfl, ?_⟩
        rw [findClass, parsed]
        rfl
    | ok container =>
        rw [parsed] at stuck
        obtain ⟨names, inside, named, unnamed⟩ := namesOf_of_stuck stuck
        exact .inr ⟨container, names, rfl, inside, unnamed,
          looksUp_until parsed named inside unnamed⟩
  · intro declared found
    rw [listMethods, found]
    rfl
  · intro fault missing
    refine ⟨?_, listInstructions_missing missing methodName⟩
    rw [listMethods, missing]
    rfl
  · intro methods listed
    obtain ⟨declared, found, -⟩ := exists_of_map_eq_ok listed
    obtain ⟨container, parsed, -⟩ := exists_of_bind_eq_ok found
    exact ⟨container, parsed, listInstructions_listed parsed listed⟩

end ByteListing.Dex
