import ByteListing.Host.Answer
import ByteListing.Proofs.Der.Sources
import ByteListing.Proofs.Dex.Faults
import ByteListing.Proofs.Host.Signatures

/-! # What calls are answered with

A call that fits an operation is answered as the query that it is; any other is refused, whatever
is stored (`reply_of_unfit`).  Of what is stored, the reply to a query depends on what its handle
stands for, and no reader or renderer ever blames the arguments: a query fails for them only if it
brings a password that nothing is decrypted with (`blames_arguments_iff`). -/
set_option autoImplicit false
namespace ByteListing

/-! ## Results that do not blame the arguments -/

def Blameless {Value : Type} (result : Except Fault Value) : Prop :=
  ∀ fault, result = .error fault → fault.kind ≠ .argument

namespace Blameless

section Results

variable {Value Next : Type}

theorem ok (value : Value) : Blameless (.ok value : Except Fault Value) := nofun

theorem error {fault : Fault} (other : fault.kind ≠ .argument) :
    Blameless (.error fault : Except Fault Value) := by
  rintro _ ⟨⟩
  exact other

theorem bind {result : Except Fault Value} {next : Value → Except Fault Next}
    (first : Blameless result) (later : ∀ value, Blameless (next value)) :
    Blameless (result >>= next) := by
  intro fault failure
  cases result with
  | error cause =>
      cases failure
      exact first _ rfl
  | ok value => exact later value fault failure

theorem map {result : Except Fault Value} (first : Blameless result) (change : Value → Next) :
    Blameless (result.map change) := by
  intro fault failure
  cases result with
  | error cause =>
      cases failure
      exact first _ rfl
  | ok value => cases failure

theorem of_onlyMalformed {result : Except Fault Value} (only : Dex.OnlyMalformed result) :
    Blameless result := by
  intro fault failure
  obtain ⟨position, details, rfl⟩ := only fault failure
  nofun

end Results

/-! ## Containers -/

theorem locate (container : Dex.Container) (name : String) (indices : List Nat) :
    Blameless (container.locate name indices) := by
  induction indices with
  | nil => exact error nofun
  | cons index rest inductionHypothesis =>
      refine (of_onlyMalformed (.classAt container index)).bind fun entry => ?_
      refine (of_onlyMalformed (.className container entry)).bind fun found => ?_
      split
      · exact ok _
      · exact inductionHypothesis

theorem findClassIn (container : Dex.Container) (name : String) :
    Blameless (container.findClass name) := by
  refine (locate container name _).bind fun entry => ?_
  refine (of_onlyMalformed (.classMethods container entry)).bind fun methods => ?_
  refine (of_onlyMalformed (.typeAt container entry.classIndex)).bind fun descriptor => ?_
  refine (of_onlyMalformed (.superclassName container entry)).bind fun superclass => ?_
  refine (of_onlyMalformed (.mapM (.describeMethod container) _)).bind fun direct => ?_
  exact (of_onlyMalformed (.mapM (.describeMethod container) _)).bind fun virtual => ok _

section Containers

variable (data : Bytes) (className methodName : String)

theorem listClasses : Blameless (Dex.listClasses data) :=
  (of_onlyMalformed (.parse data)).bind fun container => of_onlyMalformed (.classNames container)

theorem listMethods : Blameless (Dex.listMethods data className) :=
  ((of_onlyMalformed (.parse data)).bind fun container => findClassIn container className).map _

theorem listInstructions : Blameless (Dex.listInstructions data className methodName) := by
  refine (of_onlyMalformed (.parse data)).bind fun container => ?_
  refine (findClassIn container className).bind fun declared => ?_
  split
  · split
    · rename_i method _ _
      refine (of_onlyMalformed (.codeUnits container method.codeStart)).bind fun units => ?_
      exact (of_onlyMalformed (.decodeCode method.codeStart units)).bind fun instructions => ok _
    · exact ok _
  · exact error nofun

end Containers

/-! ## Schemas and elements -/

theorem resolve (schema : Bytes) (name : String) : Blameless (Schema.resolve schema name) := by
  rw [Schema.resolve]
  split
  · exact error nofun
  · split
    · exact error nofun
    · split
      · exact error nofun
      · refine map ?_ _
        rw [Schema.Pool.find]
        split
        · exact ok _
        · split
          · exact error nofun
          · exact error nofun

theorem renderAs (layout : Wire.Layout) (type : Option Wire.TypeReference) (data : Bytes) :
    Blameless (Wire.renderAs layout type data) := by
  rw [Wire.renderAs.eq_def]
  split
  · exact ok _
  · exact (resolve _ _).map _

theorem renderSource (layout : Der.Layout) (index : Nat) (source : Der.Source) :
    Blameless (source.render layout index) := by
  refine map ?_ _
  rw [Der.Source.bytes.eq_def]
  split
  · exact ok _
  · exact ok _
  · split
    · exact ok _
    · exact error nofun

end Blameless

/-! ## Passwords without a use -/

namespace Der

def Request.Idle (request : Request) : Prop := request.pem = .off ∧ request.password.isSome = true

theorem renderRequest_of_idle {request : Request} (idle : request.Idle) (layout : Layout)
    (input : Bytes) : renderRequest layout request input = .error .passwordWithoutPem := by
  obtain ⟨off, somePassword⟩ := idle
  obtain ⟨password, given⟩ := Option.isSome_iff_exists.mp somePassword
  rw [renderRequest, prepare, off, given]
  rfl

theorem blameless_prepare {request : Request} (used : ¬ request.Idle) (input : Bytes) :
    Blameless (prepare request input) := by
  rw [prepare]
  split
  · rename_i password off given
    exact absurd ⟨off, by rw [given]; rfl⟩ used
  · split
    · refine Blameless.map ?_ _
      cases HexDump.decode input with
      | ok octets => exact .ok _
      | error flaw => exact .error nofun
    · exact .ok _
  · split
    · exact .error nofun
    · exact .ok _
  · split
    · exact .error nofun
    · exact .ok _

theorem blameless_renderRequest {request : Request} (used : ¬ request.Idle) (layout : Layout)
    (input : Bytes) : Blameless (renderRequest layout request input) := by
  refine (blameless_prepare used input).bind fun sources => ?_
  split
  · exact .ok _
  · rename_i texts fault stopped
    obtain ⟨before, source, after, -, -, stuck⟩ := split_of_renderUntil stopped
    exact .error (Blameless.renderSource layout _ source fault stuck)

end Der

namespace Host

/-- A query with a password that nothing is decrypted with. -/
def Query.Idle : Query → Prop
  | .decodeDer _ request => request.Idle
  | _ => False

def Query.handle? : Query → Option Nat
  | .listClasses handle => some handle
  | .listMethods handle _ => some handle
  | .listInstructions handle _ _ => some handle
  | _ => none

structure Call where
  operation : String
  arguments : Arguments
deriving Repr, DecidableEq

abbrev Reply := Except Fault Answer

namespace Store

def reply (store : Store) (call : Call) : Reply := (store.call call.operation call.arguments).1

def next (store : Store) (call : Call) : Store := (store.call call.operation call.arguments).2

theorem call_of_fits {call : Call} {query : Query}
    (fits : Fits call.operation call.arguments query) (store : Store) :
    store.call call.operation call.arguments = store.answer query := by
  rw [Store.call, readCall_eq_ok_iff.mpr fits]

/-- A call that fits nothing is refused in the same words whatever is stored, and nothing is
stored. -/
theorem call_of_unfit {call : Call}
    (unfit : ∀ query, ¬ Fits call.operation call.arguments query) :
    ∃ details, ∀ store : Store, store.call call.operation call.arguments =
      (.error (.invalidArgument call.operation details), store) := by
  obtain ⟨details, refused⟩ := readCall_of_unfit unfit
  refine ⟨details, fun store => ?_⟩
  rw [Store.call, refused]

theorem get_of_size_le {store : Store} {handle : Nat} (unissued : store.size ≤ handle) :
    store.get handle = .error (.handleNotFound handle) := by
  rw [Store.get, List.getElem?_eq_none unissued]

/-! ## What replies depend on -/

theorem answer_congr {query : Query} (asks : ∀ data, query ≠ .createBlob data)
    {first second : Store}
    (same : ∀ handle, query.handle? = some handle → first.get handle = second.get handle) :
    (first.answer query).1 = (second.answer query).1 := by
  cases query with
  | createBlob data => exact absurd rfl (asks data)
  | listClasses handle =>
      have stored := same handle rfl
      simp only [answer, Store.listClasses, stored]
  | listMethods handle className =>
      have stored := same handle rfl
      simp only [answer, Store.listMethods, stored]
  | listInstructions handle className methodName =>
      have stored := same handle rfl
      simp only [answer, Store.listInstructions, stored]
  | decodeDer data request => rfl
  | decodeProto data type => rfl

theorem answer_unissued {query : Query} {handle : Nat} (named : query.handle? = some handle)
    {store : Store} (unissued : store.size ≤ handle) :
    (store.answer query).1 = .error (.handleNotFound handle) := by
  have missing := get_of_size_le unissued
  cases query with
  | listClasses namedHandle =>
      obtain rfl := Option.some.inj named
      simp only [answer, Store.listClasses, missing]
      rfl
  | listMethods namedHandle className =>
      obtain rfl := Option.some.inj named
      simp only [answer, Store.listMethods, missing]
      rfl
  | listInstructions namedHandle className methodName =>
      obtain rfl := Option.some.inj named
      simp only [answer, Store.listInstructions, missing]
      rfl
  | _ => cases named

theorem answer_idle {query : Query} (idle : query.Idle) (store : Store) :
    (store.answer query).1 = .error .passwordWithoutPem := by
  cases query with
  | decodeDer data request =>
      simp only [answer, Der.renderRequest_of_idle idle]
      rfl
  | _ => cases idle

theorem blameless_get (store : Store) (handle : Nat) : Blameless (store.get handle) := by
  rw [Store.get]
  split
  · exact .ok _
  · exact .error nofun

theorem blameless_answer {query : Query} (used : ¬ query.Idle) (store : Store) :
    Blameless (store.answer query).1 := by
  cases query with
  | createBlob data => exact .ok _
  | listClasses handle =>
      exact ((blameless_get store handle).bind fun data => .listClasses data).map _
  | listMethods handle className =>
      refine Blameless.map ?_ _
      refine (blameless_get store handle).bind fun data => ?_
      exact (Blameless.listMethods data className).bind fun methods => .ok _
  | listInstructions handle className methodName =>
      refine Blameless.map ?_ _
      refine (blameless_get store handle).bind fun data => ?_
      exact (Blameless.listInstructions data className methodName).bind fun listed => .ok _
  | decodeDer data request => exact (Der.blameless_renderRequest used {} data).map _
  | decodeProto data type => exact (Blameless.renderAs {} type data).map _

/-- A call fails for its arguments unless it fits an operation and has no password without a use.
Nothing that is missing or cannot be decoded is reported instead. -/
theorem blames_arguments_iff (store : Store) (call : Call) :
    (∃ fault, store.reply call = .error fault ∧ fault.kind = .argument) ↔
      ∀ query, Fits call.operation call.arguments query → query.Idle := by
  constructor
  · rintro ⟨fault, failure, argument⟩ query fits
    by_contra used
    rw [reply, call_of_fits fits] at failure
    exact blameless_answer used store fault failure argument
  · intro idle
    by_cases fitting : ∃ query, Fits call.operation call.arguments query
    · obtain ⟨query, fits⟩ := fitting
      refine ⟨.passwordWithoutPem, ?_, rfl⟩
      rw [reply, call_of_fits fits, answer_idle (idle query fits)]
    · obtain ⟨details, refused⟩ := call_of_unfit (not_exists.mp fitting)
      exact ⟨.invalidArgument call.operation details, by rw [reply, refused], rfl⟩

theorem reply_of_blames_arguments {store : Store} {call : Call} {fault : Fault}
    (failure : store.reply call = .error fault) (argument : fault.kind = .argument)
    (other : Store) : other.reply call = .error fault := by
  have idle := (blames_arguments_iff store call).mp ⟨fault, failure, argument⟩
  by_cases fitting : ∃ query, Fits call.operation call.arguments query
  · obtain ⟨query, fits⟩ := fitting
    rw [reply, call_of_fits fits, answer_idle (idle query fits)] at failure ⊢
    exact failure
  · obtain ⟨details, refused⟩ := call_of_unfit (not_exists.mp fitting)
    rw [reply, refused] at failure ⊢
    exact failure

end Store

end Host

end ByteListing
