import ByteListing.Proofs.Schema.Reflected

/-! # What a resolution says

A failed resolution says what a name refers to: the kind of whatever a file declares under that
full name (`resolve_tells_what_is_findable`).  There is a gap.  What stands inside a message or a
service and the values of enumerations are only reached by splitting the name before its last
part, so they are missed if their scope has no name, as that of an enumeration in a file without
a package (`resolve_colorAlone`), or if their own name has a point. -/
set_option autoImplicit false
namespace ByteListing.Schema

namespace DefinitionKind

def word : DefinitionKind → String
  | package => "package"
  | message => "message"
  | field => "field"
  | oneof => "oneof"
  | service => "service"
  | method => "method"
  | enum => "enum"
  | enumValue => "enum value"
  | extension => "extension"

/-- Whether things of this kind are reached by splitting their full names. -/
def isMember : DefinitionKind → Bool
  | field | oneof | method | enumValue => true
  | package | message | service | enum | extension => false

end DefinitionKind

/-- Something of this kind has this full name, and if it is reached by splitting the name, its
scope has a name and its own name has no point. -/
def IsFindable (files : List FileDescriptor) (kind : DefinitionKind) (fullName : String) : Prop :=
  ∃ scope name, DeclaredIn files kind scope name ∧ join scope name = fullName ∧
    (kind.isMember = true → scope ≠ "" ∧ '.' ∉ name.toList)

def PlainEnums (files : List FileDescriptor) : Prop :=
  ∀ tree ∈ files, ∀ scope enumeration,
    EnumIn tree scope enumeration → '.' ∉ enumeration.name.toList

/-! ## Splitting names -/

theorem withoutLeadingPoint_eq_self {name : String} (plain : name.toList.head? ≠ some '.') :
    withoutLeadingPoint name = name := by
  unfold withoutLeadingPoint
  split
  · rename_i rest begins
    exact absurd (congrArg List.head? begins) plain
  · rfl

theorem join_scoped {scope name : String} (named : scope ≠ "") :
    join scope name = scope ++ "." ++ name := by
  simp [join, named]

theorem no_point_reversed {name : String} (simple : '.' ∉ name.toList) :
    ∀ c ∈ name.toList.reverse, decide (c ≠ '.') = true := by
  intro c listed
  have absent : c ≠ '.' := fun same => simple (same ▸ List.mem_reverse.mp listed)
  simpa using absent

theorem splitLast?_scoped {leaf : String} (simple : '.' ∉ leaf.toList) (scope : String) :
    splitLast? (scope ++ "." ++ leaf) = some (scope, leaf) := by
  have reversed : (scope ++ "." ++ leaf).toList.reverse =
      leaf.toList.reverse ++ '.' :: scope.toList.reverse := by
    simp
  have taken : (leaf.toList.reverse ++ '.' :: scope.toList.reverse).takeWhile (· ≠ '.') =
      leaf.toList.reverse := by
    rw [List.takeWhile_append_of_pos (no_point_reversed simple)]
    simp
  simp only [splitLast?, reversed, taken, List.drop_left, List.reverse_reverse,
    String.ofList_toList]

theorem splitLast?_simple {name : String} (simple : '.' ∉ name.toList) :
    splitLast? name = none := by
  have taken : name.toList.reverse.takeWhile (· ≠ '.') = name.toList.reverse := by
    rw [← List.append_nil name.toList.reverse,
      List.takeWhile_append_of_pos (no_point_reversed simple), List.takeWhile_nil]
  simp only [splitLast?, taken, List.drop_length]

theorem simple_or_scoped (name : String) :
    '.' ∉ name.toList ∨ ∃ scope leaf, '.' ∉ leaf.toList ∧ name = scope ++ "." ++ leaf := by
  by_cases pointed : '.' ∈ name.toList
  · obtain ⟨leaf, scope, reversed, simple⟩ :=
      List.eq_append_cons_of_mem (List.mem_reverse.mpr pointed)
    refine .inr ⟨String.ofList scope.reverse, String.ofList leaf.reverse, by simpa using simple, ?_⟩
    apply String.toList_injective
    have whole := congrArg List.reverse reversed
    simpa using whole
  · exact .inl pointed

theorem scopeOf_join {scope name : String} (simple : '.' ∉ name.toList) :
    scopeOf (join scope name) = scope := by
  by_cases unnamed : scope = ""
  · subst unnamed
    rw [join_outside, scopeOf, splitLast?_simple simple]
  · rw [join_scoped unnamed, scopeOf, splitLast?_scoped simple]

theorem scope_begins {scope leaf : String}
    (plain : (scope ++ "." ++ leaf).toList.head? ≠ some '.') :
    scope ≠ "" ∧ scope.toList.head? ≠ some '.' := by
  have named : scope ≠ "" := by
    rintro rfl
    simp at plain
  refine ⟨named, fun begins => plain ?_⟩
  obtain ⟨rest, whole⟩ := List.head?_eq_some_iff.mp begins
  simp [whole]

theorem isFindable_iff_isDeclared {files : List FileDescriptor} {kind : DefinitionKind}
    {fullName : String} (whole : kind.isMember = false) :
    IsFindable files kind fullName ↔ IsDeclared files kind fullName := by
  simp [IsFindable, IsDeclared, whole]

theorem isDeclared_of_isFindable {files : List FileDescriptor} {kind : DefinitionKind}
    {fullName : String} (findable : IsFindable files kind fullName) :
    IsDeclared files kind fullName := by
  obtain ⟨scope, name, declared, same, _⟩ := findable
  exact ⟨scope, name, declared, same⟩

/-! ## Answers -/

/-- An answer that says the kind of something for which `holds`, whenever there is such a
thing. -/
structure Tells (answer : Option String) (holds : DefinitionKind → Prop) : Prop where
  truthful : ∀ found, answer = some found → ∃ kind, holds kind ∧ found = kind.word
  complete : ∀ kind, holds kind → answer.isSome

namespace Tells

variable {answer other : Option String} {holds others : DefinitionKind → Prop}

theorem congr (tells : Tells answer holds) (same : ∀ kind, holds kind ↔ others kind) :
    Tells answer others where
  truthful := by
    intro found answered
    obtain ⟨kind, held, rfl⟩ := tells.truthful found answered
    exact ⟨kind, (same kind).mp held, rfl⟩
  complete := fun kind held => tells.complete kind ((same kind).mpr held)

theorem nothing (never : ∀ kind, ¬ holds kind) : Tells none holds where
  truthful := nofun
  complete := fun kind held => absurd held (never kind)

theorem choose {condition held : Prop} [Decidable condition] (kind : DefinitionKind)
    (decides : condition ↔ held) (later : Tells answer holds) :
    Tells (if condition then some kind.word else answer)
      fun other => other = kind ∧ held ∨ holds other where
  truthful := by
    intro found answered
    split at answered
    · rename_i chosen
      exact ⟨kind, .inl ⟨rfl, decides.mp chosen⟩, (Option.some.inj answered).symm⟩
    · obtain ⟨other, otherHeld, rfl⟩ := later.truthful found answered
      exact ⟨other, .inr otherHeld, rfl⟩
  complete := by
    intro other oneHeld
    split
    · rfl
    · rename_i notChosen
      rcases oneHeld with ⟨_, kindHeld⟩ | otherHeld
      · exact absurd (decides.mpr kindHeld) notChosen
      · exact later.complete other otherHeld

theorem only {condition held : Prop} [Decidable condition] (kind : DefinitionKind)
    (decides : condition ↔ held) :
    Tells (if condition then some kind.word else none) fun other => other = kind ∧ held :=
  (choose kind decides (nothing fun _ => id)).congr fun _ => or_iff_left id

theorem or (first : Tells answer holds) (second : Tells other others) :
    Tells (answer.or other) fun kind => holds kind ∨ others kind where
  truthful := by
    intro found answered
    rcases Option.or_eq_some_iff.mp answered with firstAnswered | ⟨_, secondAnswered⟩
    · obtain ⟨kind, held, rfl⟩ := first.truthful found firstAnswered
      exact ⟨kind, .inl held, rfl⟩
    · obtain ⟨kind, held, rfl⟩ := second.truthful found secondAnswered
      exact ⟨kind, .inr held, rfl⟩
  complete := by
    intro kind held
    rw [Option.isSome_or, Bool.or_eq_true]
    exact held.imp (first.complete kind) (second.complete kind)

end Tells

/-! ## What is found in a pool -/

namespace Pool

variable {pool : Pool} {files : List FileDescriptor} (reflects : pool.Reflects files)

include reflects

theorem tells_messageMember? (scope leaf : String) :
    Tells (pool.messageMember? scope leaf) fun kind =>
      kind = .field ∧ DeclaredIn files .field scope leaf ∨
        kind = .oneof ∧ DeclaredIn files .oneof scope leaf := by
  have field := reflects.field scope leaf
  have oneof := reflects.oneof scope leaf
  rw [messageMember?]
  cases found : pool.message? scope with
  | none =>
      simp only [found] at field oneof
      apply Tells.nothing
      rintro kind (⟨_, declared⟩ | ⟨_, declared⟩)
      · obtain ⟨_, ⟨⟩, _⟩ := field.mpr declared
      · obtain ⟨_, ⟨⟩, _⟩ := oneof.mpr declared
  | some message =>
      simp only [found, Option.some.injEq, exists_eq_left'] at field oneof
      apply Tells.choose .field
      · simpa using field
      · apply Tells.only .oneof
        simpa using oneof

theorem tells_serviceMember? (scope leaf : String) :
    Tells (pool.serviceMember? scope leaf) fun kind =>
      kind = .method ∧ DeclaredIn files .method scope leaf := by
  have method := reflects.method scope leaf
  rw [serviceMember?]
  cases found : pool.service? scope with
  | none =>
      simp only [found] at method
      apply Tells.nothing
      rintro kind ⟨_, declared⟩
      obtain ⟨_, ⟨⟩, _⟩ := method.mpr declared
  | some service =>
      simp only [found, Option.some.injEq, exists_eq_left'] at method
      apply Tells.only .method
      simpa using method

theorem tells_enumMember? (plainEnums : PlainEnums files) (scope leaf : String) :
    Tells (pool.enumMember? scope leaf) fun kind =>
      kind = .enumValue ∧ DeclaredIn files .enumValue scope leaf := by
  apply Tells.only .enumValue
  simp only [List.any_eq_true, Bool.and_eq_true, beq_iff_eq]
  constructor
  · rintro ⟨enumeration, listed, rfl, valueListed⟩
    obtain ⟨tree, inside, scope, descriptor, placed, same, value, valueInside, rfl⟩ :=
      (reflects.enumValue enumeration.fullName leaf).mp ⟨enumeration, listed, rfl, valueListed⟩
    rw [← same, scopeOf_join (plainEnums tree inside scope descriptor placed)]
    exact ⟨tree, inside, .enumValue placed valueInside⟩
  · rintro ⟨tree, inside, declares⟩
    cases declares with
    | @enumValue _ descriptor value placed valueInside =>
        obtain ⟨enumeration, listed, same, valueListed⟩ :=
          (reflects.enumValue (join scope descriptor.name) value.name).mpr
            ⟨tree, inside, scope, descriptor, placed, rfl, value, valueInside, rfl⟩
        refine ⟨enumeration, listed, ?_, valueListed⟩
        rw [same, scopeOf_join (plainEnums tree inside scope descriptor placed)]

theorem tells_member? (plainEnums : PlainEnums files) {scope : String}
    (plain : scope.toList.head? ≠ some '.') (leaf : String) :
    Tells (pool.member? scope leaf) fun kind =>
      kind.isMember = true ∧ DeclaredIn files kind scope leaf := by
  rw [member?, withoutLeadingPoint_eq_self plain]
  apply ((tells_messageMember? reflects scope leaf).or
    ((tells_serviceMember? reflects scope leaf).or
      (tells_enumMember? reflects plainEnums scope leaf))).congr
  intro kind
  cases kind <;> simp [DefinitionKind.isMember]

theorem tells_split (plainEnums : PlainEnums files) {name : String}
    (plain : name.toList.head? ≠ some '.') :
    Tells ((splitLast? name).bind fun (scope, leaf) => pool.member? scope leaf) fun kind =>
      kind.isMember = true ∧ IsFindable files kind name := by
  rcases simple_or_scoped name with simple | ⟨scope, leaf, leafSimple, rfl⟩
  · rw [splitLast?_simple simple]
    apply Tells.nothing
    rintro kind ⟨member, scope, leaf, _, rfl, reached⟩
    rw [join_scoped (reached member).1] at simple
    simp at simple
  · obtain ⟨named, scopePlain⟩ := scope_begins plain
    rw [splitLast?_scoped leafSimple]
    apply (tells_member? reflects plainEnums scopePlain leaf).congr
    intro kind
    refine and_congr_right fun member => ⟨?_, ?_⟩
    · intro declared
      exact ⟨scope, leaf, declared, join_scoped named, fun _ => ⟨named, leafSimple⟩⟩
    · rintro ⟨otherScope, otherLeaf, declared, same, reached⟩
      obtain ⟨otherNamed, otherSimple⟩ := reached member
      have split := congrArg splitLast? same
      rw [join_scoped otherNamed, splitLast?_scoped otherSimple, splitLast?_scoped leafSimple]
        at split
      obtain ⟨rfl, rfl⟩ := Prod.mk.inj (Option.some.inj split)
      exact declared

/-- What a name refers to is told if it can be found. -/
theorem tells_describe? (plainEnums : PlainEnums files) {name : String}
    (plain : name.toList.head? ≠ some '.') :
    Tells (pool.describe? name) fun kind => kind ≠ .message ∧ IsFindable files kind name := by
  rw [describe?, withoutLeadingPoint_eq_self plain]
  have package : pool.packages.contains name = true ↔ IsDeclared files .package name := by
    rw [List.contains_iff_mem, reflects.package]
  apply (Tells.choose .enum (reflects.enum name) (.choose .service (reflects.service name)
    (.choose .extension (reflects.extension name) (.choose .package package
      (tells_split reflects plainEnums plain))))).congr
  intro kind
  have whole (noMember : kind.isMember = false) :
      IsFindable files kind name ↔ IsDeclared files kind name :=
    isFindable_iff_isDeclared noMember
  cases kind <;> simp [DefinitionKind.isMember] at whole ⊢ <;> rw [whole]

/-! ## The outcome of a search -/

theorem find_message {name : String} (plain : name.toList.head? ≠ some '.')
    (declared : IsDeclared files .message name) :
    ∃ message, pool.find name = .ok message ∧ message.fullName = name := by
  obtain ⟨message, found⟩ := Option.isSome_iff_exists.mp ((reflects.message name).mpr declared)
  have same : message.fullName = name := by simpa using List.find?_some found
  refine ⟨message, ?_, same⟩
  rw [find, withoutLeadingPoint_eq_self plain, found]

theorem message?_eq_none {name : String} (undeclared : ¬ IsDeclared files .message name) :
    pool.message? name = none := by
  rw [← Option.not_isSome_iff_eq_none, reflects.message]
  exact undeclared

theorem find_other (plainEnums : PlainEnums files) {name : String} (named : name ≠ "")
    (plain : name.toList.head? ≠ some '.') {kind : DefinitionKind} (noMessage : kind ≠ .message)
    (findable : IsFindable files kind name) :
    pool.find name = .error (.notAMessage name kind.word) := by
  have undeclared : ¬ IsDeclared files .message name := fun declared =>
    noMessage (reflects.distinct _ _ name named (isDeclared_of_isFindable findable) declared)
  have tells := tells_describe? reflects plainEnums plain
  obtain ⟨found, described⟩ := Option.isSome_iff_exists.mp
    (tells.complete kind ⟨noMessage, findable⟩)
  obtain ⟨other, ⟨_, otherFindable⟩, rfl⟩ := tells.truthful found described
  obtain rfl := reflects.distinct _ _ name named (isDeclared_of_isFindable findable)
    (isDeclared_of_isFindable otherFindable)
  rw [find, withoutLeadingPoint_eq_self plain, message?_eq_none reflects undeclared, described]

theorem find_nothing (plainEnums : PlainEnums files) {name : String}
    (plain : name.toList.head? ≠ some '.') (nothing : ∀ kind, ¬ IsFindable files kind name) :
    pool.find name = .error (.messageNotFound name) := by
  have undeclared : ¬ IsDeclared files .message name := fun declared =>
    nothing .message ((isFindable_iff_isDeclared rfl).mpr declared)
  have described : pool.describe? name = none := by
    refine Option.eq_none_iff_forall_ne_some.mpr fun found described => ?_
    obtain ⟨kind, ⟨_, findable⟩, _⟩ :=
      (tells_describe? reflects plainEnums plain).truthful found described
    exact nothing kind findable
  rw [find, withoutLeadingPoint_eq_self plain, message?_eq_none reflects undeclared, described]

end Pool

/-! ## The outcome of a resolution -/

/-- What a resolution in an accepted schema says about a name: it finds the message of that name,
it tells the kind of anything else that can be found, and it misses the name if there is
nothing. -/
theorem resolve_tells_what_is_findable {schema : Bytes} {files : List FileDescriptor} {pool : Pool}
    {written name : String} (nonempty : schema ≠ [])
    (decoded : FileDescriptor.decodeSet? schema = some files)
    (accepted : Pool.decode schema = .ok pool) (plainEnums : PlainEnums files)
    (writtenAs : withoutLeadingPoint written = name) (named : name ≠ "")
    (plain : name.toList.head? ≠ some '.') :
    ((∃ message, resolve schema written = .ok (pool, message) ∧ message.fullName = name) ↔
      IsDeclared files .message name) ∧
    (∀ found, resolve schema written = .error (.notAMessage name found) ↔
      ∃ kind, kind ≠ .message ∧ IsFindable files kind name ∧ found = kind.word) ∧
    (resolve schema written = .error (.messageNotFound name) ↔
      ∀ kind, ¬ IsFindable files kind name) := by
  have reflects := Pool.reflects_of_decode decoded accepted
  have searched : resolve schema written = (pool.find name).map (pool, ·) := by
    simp [resolve, writtenAs, nonempty, named, accepted]
  by_cases findable : ∃ kind, IsFindable files kind name
  · obtain ⟨kind, findable⟩ := findable
    have declared := isDeclared_of_isFindable findable
    have only {other : DefinitionKind} (also : IsDeclared files other name) : kind = other :=
      reflects.distinct _ _ name named declared also
    by_cases isMessage : kind = .message
    · subst isMessage
      obtain ⟨message, found, same⟩ := Pool.find_message reflects plain declared
      rw [searched, found]
      refine ⟨iff_of_true ⟨message, rfl, same⟩ declared, fun found => iff_of_false nofun ?_,
        iff_of_false nofun fun nothing => nothing .message findable⟩
      rintro ⟨other, noMessage, also, _⟩
      exact noMessage (only (isDeclared_of_isFindable also)).symm
    · rw [searched, Pool.find_other reflects plainEnums named plain isMessage findable]
      refine ⟨iff_of_false nofun fun message => isMessage (only message), fun found => ⟨?_, ?_⟩,
        iff_of_false nofun fun nothing => nothing kind findable⟩
      · intro equal
        cases equal
        exact ⟨kind, isMessage, findable, rfl⟩
      · rintro ⟨other, _, also, rfl⟩
        rw [only (isDeclared_of_isFindable also)]
        rfl
  · have nothing : ∀ kind, ¬ IsFindable files kind name := not_exists.mp findable
    rw [searched, Pool.find_nothing reflects plainEnums plain nothing]
    refine ⟨iff_of_false nofun fun message => ?_, fun found => iff_of_false nofun ?_,
      iff_of_true rfl nothing⟩
    · exact nothing .message ((isFindable_iff_isDeclared rfl).mpr message)
    · rintro ⟨kind, _, also, _⟩
      exact nothing kind also

/-! ## An enumeration value with and without a package -/

/-- A file in the package p with an enumeration `Color` that has the value `RED`. -/
def colorInPackage : Bytes :=
  [10, 24, 10, 1, 102, 18, 1, 112, 42, 16, 10, 5, 67, 111, 108, 111, 114, 18, 7, 10, 3, 82, 69,
    68, 16, 0]

/-- The same file without a package. -/
def colorAlone : Bytes :=
  [10, 21, 10, 1, 102, 42, 16, 10, 5, 67, 111, 108, 111, 114, 18, 7, 10, 3, 82, 69, 68, 16, 0]

def hasPlainEnumsOnly (files : List FileDescriptor) : Bool :=
  files.all fun tree => tree.messages.isEmpty &&
    tree.enums.all fun enumeration => !enumeration.name.toList.contains '.'

def hasOutermostValue (files : List FileDescriptor) (package name : String) : Bool :=
  files.any fun tree => tree.package == package &&
    tree.enums.any fun enumeration => enumeration.values.any fun value => value.name == name

theorem not_messageIn {tree : FileDescriptor} (noMessages : tree.messages = [])
    {scope : String} {message : MessageDescriptor} : ¬ MessageIn tree scope message := by
  intro placed
  induction placed with
  | outermost inside =>
      rw [noMessages] at inside
      cases inside
  | nested _ _ impossible => exact impossible

theorem plainEnums_of_hasPlainEnumsOnly {files : List FileDescriptor}
    (checked : hasPlainEnumsOnly files = true) : PlainEnums files := by
  intro tree inside scope enumeration placed
  have treeChecked := List.all_eq_true.mp checked tree inside
  rw [Bool.and_eq_true] at treeChecked
  obtain ⟨noMessages, plain⟩ := treeChecked
  cases placed with
  | outermost enumInside => simpa using List.all_eq_true.mp plain enumeration enumInside
  | nested messagePlaced _ =>
      exact absurd messagePlaced (not_messageIn (List.isEmpty_iff.mp noMessages))

theorem declaredIn_of_hasOutermostValue {files : List FileDescriptor} {package name : String}
    (checked : hasOutermostValue files package name = true) :
    DeclaredIn files .enumValue package name := by
  simp only [hasOutermostValue, List.any_eq_true, Bool.and_eq_true, beq_iff_eq] at checked
  obtain ⟨tree, inside, rfl, enumeration, enumInside, value, valueInside, rfl⟩ := checked
  exact ⟨tree, inside, .enumValue (.outermost enumInside) valueInside⟩

theorem resolve_colorInPackage :
    ∃ files, FileDescriptor.decodeSet? colorInPackage = some files ∧ PlainEnums files ∧
      IsFindable files .enumValue "p.RED" ∧
      resolve colorInPackage "p.RED" = .error (.notAMessage "p.RED" "enum value") := by
  have read : (FileDescriptor.decodeSet? colorInPackage).any (fun files =>
      hasPlainEnumsOnly files && hasOutermostValue files "p" "RED") = true := by
    decide +kernel
  obtain ⟨files, decoded, checked⟩ := (Option.any_eq_true _ _).mp read
  rw [Bool.and_eq_true] at checked
  have plainEnums := plainEnums_of_hasPlainEnumsOnly checked.1
  have findable : IsFindable files .enumValue "p.RED" :=
    ⟨"p", "RED", declaredIn_of_hasOutermostValue checked.2, by decide, fun _ => by decide⟩
  have accepts : (Pool.decode colorInPackage).toBool = true := by decide +kernel
  cases accepted : Pool.decode colorInPackage with
  | error flaw =>
      rw [accepted] at accepts
      cases accepts
  | ok pool =>
      have told := resolve_tells_what_is_findable (by decide) decoded accepted plainEnums
        (by decide : withoutLeadingPoint "p.RED" = "p.RED") (by decide) (by decide)
      exact ⟨files, decoded, plainEnums, findable,
        (told.2.1 "enum value").mpr ⟨.enumValue, nofun, findable, rfl⟩⟩

/-- The value of an enumeration in a file without a package has a full name, and it is reported
as missing. -/
theorem resolve_colorAlone :
    ∃ files, FileDescriptor.decodeSet? colorAlone = some files ∧
      IsDeclared files .enumValue "RED" ∧
      resolve colorAlone "RED" = .error (.messageNotFound "RED") := by
  have read : (FileDescriptor.decodeSet? colorAlone).any (hasOutermostValue · "" "RED") = true := by
    decide +kernel
  obtain ⟨files, decoded, checked⟩ := (Option.any_eq_true _ _).mp read
  have missed : (match resolve colorAlone "RED" with
      | .error fault => decide (fault = .messageNotFound "RED")
      | .ok _ => false) = true := by
    decide +kernel
  refine ⟨files, decoded, ⟨"", "RED", declaredIn_of_hasOutermostValue checked, rfl⟩, ?_⟩
  cases outcome : resolve colorAlone "RED" with
  | ok found =>
      rw [outcome] at missed
      cases missed
  | error fault =>
      rw [outcome] at missed
      exact congrArg Except.error (of_decide_eq_true missed)

end ByteListing.Schema
