import ByteListing.Proofs.Schema.Declared
import ByteListing.Proofs.Steps

/-! # Entered names

What it means that the names of a schema could be collected.  Entering a declaration keeps the
earlier entries, and unless it is a package its name was free (`entered_of_declare`).  Over a
whole sequence, every declaration is found under its full name with its kind, and no two
declarations other than packages have the same full name (`entered_of_foldlM`). -/
set_option autoImplicit false
namespace ByteListing.Schema

namespace Names

def kindOf? (names : Names) (name : String) : Option DefinitionKind :=
  (names.lookup name).map Definition.kind

theorem kindOf?_of_kept {names entered : Names} (kept : names <+: entered) {name : String}
    {kind : DefinitionKind} (found : names.kindOf? name = some kind) :
    entered.kindOf? name = some kind := by
  obtain ⟨later, rfl⟩ := kept
  obtain ⟨definition, lookup, rfl⟩ := Option.map_eq_some_iff.mp found
  simp [kindOf?, List.lookup_append, lookup]

theorem kindOf?_append_self {names : Names} {name : String} {definition : Definition}
    (free : names.lookup name = none) :
    kindOf? (names ++ [(name, definition)]) name = some definition.kind := by
  simp [kindOf?, List.lookup_append, free]

structure Entered (names entered : Names) (declarations : List (Nat × Declaration)) : Prop where
  kept : names <+: entered
  found : ∀ declared ∈ declarations,
    (declared.2.kind = .package → declared.2.fullName ≠ "") →
      entered.kindOf? declared.2.fullName = some declared.2.kind
  fresh : ∀ declared ∈ declarations, declared.2.kind ≠ .package →
    names.kindOf? declared.2.fullName = none
  distinct : ∀ first ∈ declarations, ∀ second ∈ declarations,
    first.2.kind ≠ .package → second.2.kind ≠ .package →
      first.2.fullName = second.2.fullName → first.2 = second.2

namespace Entered

theorem nil (names : Names) : Entered names names [] where
  kept := List.prefix_rfl
  found := fun _ listed => nomatch listed
  fresh := fun _ listed => nomatch listed
  distinct := fun _ listed => nomatch listed

theorem cons {names middle entered : Names} {declared : Nat × Declaration}
    {rest : List (Nat × Declaration)} (one : Entered names middle [declared])
    (more : Entered middle entered rest) : Entered names entered (declared :: rest) where
  kept := one.kept.trans more.kept
  found := by
    intro other listed named
    rcases List.mem_cons.mp listed with rfl | later
    · exact kindOf?_of_kept more.kept (one.found other List.mem_cons_self named)
    · exact more.found other later named
  fresh := by
    intro other listed noPackage
    rcases List.mem_cons.mp listed with rfl | later
    · exact one.fresh other List.mem_cons_self noPackage
    · have free := more.fresh other later noPackage
      refine Option.eq_none_iff_forall_ne_some.mpr fun kind taken => ?_
      rw [kindOf?_of_kept one.kept taken] at free
      cases free
  distinct := by
    -- The name of the first is taken when the others are entered.
    have apart : declared.2.kind ≠ .package → ∀ other ∈ rest, other.2.kind ≠ .package →
        declared.2.fullName ≠ other.2.fullName := by
      intro noPackage other later otherNoPackage same
      have taken := one.found declared List.mem_cons_self fun package =>
        absurd package noPackage
      rw [same, more.fresh other later otherNoPackage] at taken
      cases taken
    intro first firstListed second secondListed firstKind secondKind same
    rcases List.mem_cons.mp firstListed with rfl | firstLater
    · rcases List.mem_cons.mp secondListed with rfl | secondLater
      · rfl
      · exact absurd same (apart firstKind second secondLater secondKind)
    · rcases List.mem_cons.mp secondListed with rfl | secondLater
      · exact absurd same.symm (apart secondKind first firstLater firstKind)
      · exact more.distinct first firstLater second secondLater firstKind secondKind same

end Entered

/-! ## One declaration -/

section

variable {files : List FileDescriptor} {names entered : Names}

theorem enter_eq_ok {name : String} {definition : Definition}
    (success : enter files name definition names = .ok entered) :
    names <+: entered ∧ entered.kindOf? name = some definition.kind ∧
      (definition.kind ≠ .package → names.kindOf? name = none) := by
  rw [enter] at success
  split at success
  · rename_i free
    obtain rfl := Except.ok.inj success
    refine ⟨List.prefix_append .., kindOf?_append_self free, fun _ => ?_⟩
    rw [kindOf?, free, Option.map_none]
  · rename_i earlier taken
    split at success
    · rename_i packages
      obtain rfl := Except.ok.inj success
      refine ⟨List.prefix_rfl, ?_, fun noPackage => absurd packages.2 noPackage⟩
      rw [kindOf?, taken, Option.map_some, packages.1, packages.2]
    · dsimp only at success
      split at success <;> cases success

theorem enterParts_eq_ok {index : Nat} {parts : List String}
    (success : parts.foldlM
      (fun entered part => enter files part ⟨.package, index⟩ entered) names = .ok entered) :
    names <+: entered ∧ ∀ part ∈ parts, entered.kindOf? part = some .package := by
  induction parts generalizing names with
  | nil =>
      obtain rfl := Except.ok.inj success
      exact ⟨List.prefix_rfl, nofun⟩
  | cons first rest inductionHypothesis =>
      rw [List.foldlM_cons] at success
      obtain ⟨middle, firstEntered, restEntered⟩ := exists_of_bind_eq_ok success
      obtain ⟨firstKept, firstFound, _⟩ := enter_eq_ok firstEntered
      obtain ⟨restKept, restFound⟩ := inductionHypothesis restEntered
      refine ⟨firstKept.trans restKept, fun part listed => ?_⟩
      rcases List.mem_cons.mp listed with rfl | later
      · exact kindOf?_of_kept restKept firstFound
      · exact restFound part later

theorem mem_packageParts {package : String} (named : package ≠ "") :
    package ∈ packageParts package := by
  simp [packageParts, named]

/-- A declaration other than a file is entered under its full name and nothing else is. -/
theorem enter_of_declare {index : Nat} {declaration : Declaration}
    (noFile : declaration.kind ≠ .package)
    (success : declare files index names declaration = .ok entered) :
    enter files declaration.fullName ⟨declaration.kind, index⟩ names = .ok entered := by
  cases declaration with
  | file => exact absurd rfl noFile
  | message fullName message =>
      obtain ⟨middle, entering, checking⟩ := exists_of_bind_eq_ok success
      have same : middle = entered := by
        dsimp only at checking
        split at checking
        · obtain ⟨_, _, returned⟩ := exists_of_bind_eq_ok checking
          exact Except.ok.inj returned
        · exact Except.ok.inj checking
      rw [← same]
      exact entering
  | enum fullName enumeration =>
      obtain ⟨middle, entering, checking⟩ := exists_of_bind_eq_ok success
      obtain ⟨_, _, returned⟩ := exists_of_bind_eq_ok checking
      obtain rfl := Except.ok.inj returned
      exact entering
  | oneof | field | enumValue | service | method | extension => exact success

theorem entered_of_declare {index : Nat} {declaration : Declaration}
    (success : declare files index names declaration = .ok entered) :
    Entered names entered [(index, declaration)] := by
  have only (first second : Nat × Declaration) (firstListed : first ∈ [(index, declaration)])
      (secondListed : second ∈ [(index, declaration)]) : first.2 = second.2 := by
    rw [List.mem_singleton.mp firstListed, List.mem_singleton.mp secondListed]
  by_cases isFile : declaration.kind = .package
  · cases declaration with
    | file tree =>
        dsimp only [declare] at success
        split at success
        · cases success
        obtain ⟨kept, found⟩ := enterParts_eq_ok success
        refine ⟨kept, ?_, ?_, fun first firstListed second secondListed _ _ _ =>
          only first second firstListed secondListed⟩
        · rintro _ (_ | ⟨_, ⟨⟩⟩) named
          exact found tree.package (mem_packageParts (named rfl))
        · rintro _ (_ | ⟨_, ⟨⟩⟩) noPackage
          exact absurd rfl noPackage
    | _ => cases isFile
  · obtain ⟨kept, found, fresh⟩ := enter_eq_ok (enter_of_declare isFile success)
    refine ⟨kept, ?_, ?_, fun first firstListed second secondListed _ _ _ =>
      only first second firstListed secondListed⟩
    · rintro _ (_ | ⟨_, ⟨⟩⟩) _
      exact found
    · rintro _ (_ | ⟨_, ⟨⟩⟩) noPackage
      exact fresh noPackage

/-! ## All declarations -/

theorem entered_of_foldlM {declarations : List (Nat × Declaration)}
    (success : declarations.foldlM
      (fun names (index, declaration) => declare files index names declaration) names =
        .ok entered) :
    Entered names entered declarations := by
  induction declarations generalizing names with
  | nil =>
      obtain rfl := Except.ok.inj success
      exact .nil names
  | cons first rest inductionHypothesis =>
      rw [List.foldlM_cons] at success
      obtain ⟨middle, firstEntered, restEntered⟩ := exists_of_bind_eq_ok success
      exact .cons (entered_of_declare firstEntered) (inductionHypothesis restEntered)

theorem entered_of_collect {declarations : List (Nat × Declaration)}
    (success : collect files declarations = .ok entered) : Entered [] entered declarations :=
  entered_of_foldlM success

end

end Names

end ByteListing.Schema
