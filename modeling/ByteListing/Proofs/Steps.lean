import Mathlib.Data.List.Forall2

/-! # Steps that may fail

A step that may fail is a result with a value or a cause.  Steps one after the other succeed only if
each of them does, and the steps of a list succeed item by item; they fail as the first item does
that fails (`split_of_mapM_eq_error`). -/
set_option autoImplicit false
namespace ByteListing

theorem exists_of_bind_eq_ok {Cause Value Result : Type} {first : Except Cause Value}
    {next : Value → Except Cause Result} {result : Result}
    (success : (first >>= next) = .ok result) :
    ∃ value, first = .ok value ∧ next value = .ok result := by
  cases first with
  | error cause => cases success
  | ok value => exact ⟨value, rfl, success⟩

section

variable {Cause Item Value : Type} {read : Item → Except Cause Value} {items : List Item}
  {values : List Value}

theorem mapM_cons_eq_ok {first : Item} (success : (first :: items).mapM read = .ok values) :
    ∃ head tail, values = head :: tail ∧ read first = .ok head ∧ items.mapM read = .ok tail := by
  rw [List.mapM_cons] at success
  obtain ⟨head, firstRead, continued⟩ := exists_of_bind_eq_ok success
  obtain ⟨tail, restRead, returned⟩ := exists_of_bind_eq_ok continued
  exact ⟨head, tail, (Except.ok.inj returned).symm, firstRead, restRead⟩

theorem exists_item_of_mapM_eq_ok (success : items.mapM read = .ok values) {value : Value}
    (listed : value ∈ values) : ∃ item ∈ items, read item = .ok value := by
  induction items generalizing values with
  | nil =>
      obtain rfl := Except.ok.inj success
      cases listed
  | cons first rest inductionHypothesis =>
      obtain ⟨head, tail, rfl, firstRead, restRead⟩ := mapM_cons_eq_ok success
      rcases List.mem_cons.mp listed with rfl | later
      · exact ⟨first, List.mem_cons_self, firstRead⟩
      · obtain ⟨item, inside, itemRead⟩ := inductionHypothesis restRead later
        exact ⟨item, List.mem_cons_of_mem first inside, itemRead⟩

theorem exists_value_of_mapM_eq_ok (success : items.mapM read = .ok values) {item : Item}
    (listed : item ∈ items) : ∃ value ∈ values, read item = .ok value := by
  induction items generalizing values with
  | nil => cases listed
  | cons first rest inductionHypothesis =>
      obtain ⟨head, tail, rfl, firstRead, restRead⟩ := mapM_cons_eq_ok success
      rcases List.mem_cons.mp listed with rfl | later
      · exact ⟨head, List.mem_cons_self, firstRead⟩
      · obtain ⟨value, inside, itemRead⟩ := inductionHypothesis restRead later
        exact ⟨value, List.mem_cons_of_mem head inside, itemRead⟩

theorem forall₂_of_mapM_eq_ok (success : items.mapM read = .ok values) :
    List.Forall₂ (fun item value => read item = .ok value) items values := by
  induction items generalizing values with
  | nil =>
      obtain rfl := Except.ok.inj success
      exact .nil
  | cons first rest inductionHypothesis =>
      obtain ⟨head, tail, rfl, firstRead, restRead⟩ := mapM_cons_eq_ok success
      exact .cons firstRead (inductionHypothesis restRead)

theorem split_of_mapM_eq_error {cause : Cause} (failure : items.mapM read = .error cause) :
    ∃ before item after values, items = before ++ item :: after ∧
      List.Forall₂ (fun item value => read item = .ok value) before values ∧
      read item = .error cause := by
  induction items with
  | nil => cases failure
  | cons first rest inductionHypothesis =>
      rw [List.mapM_cons] at failure
      cases firstRead : read first with
      | error other =>
          rw [firstRead] at failure
          cases failure
          exact ⟨[], first, rest, [], rfl, .nil, firstRead⟩
      | ok value =>
          rw [firstRead] at failure
          have restFailure : rest.mapM read = .error cause := by
            cases restRead : rest.mapM read with
            | error other =>
                rw [restRead] at failure
                cases failure
                rfl
            | ok others =>
                rw [restRead] at failure
                cases failure
          obtain ⟨before, item, after, values, rfl, readBefore, stuck⟩ :=
            inductionHypothesis restFailure
          exact ⟨first :: before, item, after, value :: values, rfl, .cons firstRead readBefore,
            stuck⟩

theorem exists_of_map_eq_ok {Result : Type} {first : Except Cause Value}
    {change : Value → Result} {result : Result} (success : first.map change = .ok result) :
    ∃ value, first = .ok value ∧ change value = result := by
  cases first with
  | error cause => cases success
  | ok value => exact ⟨value, rfl, Except.ok.inj success⟩

theorem eq_ok_of_toOption {step : Except Cause Value} {value : Value}
    (found : step.toOption = some value) : step = .ok value := by
  cases step with
  | error cause => cases found
  | ok other => exact congrArg Except.ok (Option.some.inj found)

end

end ByteListing
