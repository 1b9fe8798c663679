import ByteListing.Proofs.Host.Replies

/-! # Runs of calls

Calls follow one another on a store, and its transcript says how each of them was answered.  Only a
call that creates a blob and succeeds changes the store, and it adds to the end (`next_eq`): the
handles are the numbers of these calls, and what stands under a handle stays there.  So queries can
be put anywhere into a run, or left out, and all other replies stay as they are
(`transcript_keepMarked`). -/
set_option autoImplicit false
namespace ByteListing.Host

def containerOperations : List String := ["listClasses", "listMethods", "listInstructions"]

namespace Call

def stored? : Call → Option Bytes
  | ⟨"createBlob", [.bytes data]⟩ => some data
  | _ => none

/-- Whether a call has created a blob, by its reply. -/
def created (call : Call) (reply : Reply) : Bool := call.operation == "createBlob" && reply.isOk

theorem eq_of_stored? {call : Call} {data : Bytes} (stored : call.stored? = some data) :
    call = ⟨"createBlob", [.bytes data]⟩ := by
  rw [stored?.eq_def] at stored
  split at stored
  · rw [Option.some.inj stored]
  · cases stored

theorem stored?_of_fits {call : Call} {query : Query}
    (fits : Fits call.operation call.arguments query) :
    (∃ data, query = .createBlob data ∧ call.stored? = some data) ∨
      (∀ data, query ≠ .createBlob data) ∧ call.stored? = none := by
  obtain ⟨operation, arguments⟩ := call
  cases fits with
  | createBlob data => exact .inl ⟨data, rfl, rfl⟩
  | _ => exact .inr ⟨nofun, rfl⟩

theorem stored?_of_unfit {call : Call}
    (unfit : ∀ query, ¬ Fits call.operation call.arguments query) : call.stored? = none := by
  cases stored : call.stored? with
  | none => rfl
  | some data =>
      obtain rfl := eq_of_stored? stored
      exact absurd (.createBlob data) (unfit _)

theorem stored?_of_query {call : Call} (asks : call.operation ≠ "createBlob") :
    call.stored? = none := by
  cases stored : call.stored? with
  | none => rfl
  | some data =>
      obtain rfl := eq_of_stored? stored
      exact absurd rfl asks

end Call

def keepMarked {Item : Type} (marked : List (Item × Bool)) : List Item :=
  (marked.filter Prod.snd).map Prod.fst

def issued (steps : List (Call × Reply)) : Nat := steps.countP fun step => step.1.created step.2

namespace Store

def after (store : Store) (calls : List Call) : Store := calls.foldl next store

def transcript (store : Store) : List Call → List (Call × Reply)
  | [] => []
  | call :: rest => (call, store.reply call) :: (store.next call).transcript rest

/-! ## One call -/

theorem next_eq (store : Store) (call : Call) :
    store.next call = ⟨store.blobs ++ call.stored?.toList⟩ := by
  by_cases fitting : ∃ query, Fits call.operation call.arguments query
  · obtain ⟨query, fits⟩ := fitting
    rw [next, call_of_fits fits]
    rcases Call.stored?_of_fits fits with ⟨data, rfl, stored⟩ | ⟨asks, stored⟩
    · rw [stored]
      rfl
    · rw [stored, Option.toList_none, List.append_nil]
      cases query with
      | createBlob data => exact absurd rfl (asks data)
      | _ => rfl
  · obtain ⟨details, refused⟩ := call_of_unfit (not_exists.mp fitting)
    rw [next, refused, Call.stored?_of_unfit (not_exists.mp fitting), Option.toList_none,
      List.append_nil]

theorem next_of_query (store : Store) {call : Call} (asks : call.operation ≠ "createBlob") :
    store.next call = store := by
  rw [next_eq, Call.stored?_of_query asks, Option.toList_none, List.append_nil]

theorem reply_of_stored? {call : Call} {data : Bytes} (stored : call.stored? = some data)
    (store : Store) : store.reply call = .ok (.handle store.size) := by
  obtain rfl := Call.eq_of_stored? stored
  rfl

/-- A blob is created exactly by the calls that store something. -/
theorem created_reply (store : Store) (call : Call) :
    call.created (store.reply call) = call.stored?.isSome := by
  cases stored : call.stored? with
  | some data =>
      rw [reply_of_stored? stored]
      obtain rfl := Call.eq_of_stored? stored
      rfl
  | none =>
      by_cases creates : call.operation = "createBlob"
      · have unfit : ∀ query, ¬ Fits call.operation call.arguments query := by
          intro query fits
          obtain ⟨operation, arguments⟩ := call
          cases fits with
          | createBlob data => cases stored
          | _ => simp at creates
        obtain ⟨details, refused⟩ := call_of_unfit unfit
        rw [Call.created, reply, refused]
        exact Bool.and_false _
      · rw [Call.created, beq_eq_false_iff_ne.mpr creates]
        rfl

theorem get_next {store : Store} {handle : Nat} {data : Bytes}
    (stored : store.get handle = .ok data) (call : Call) :
    (store.next call).get handle = .ok data := by
  rw [get] at stored
  split at stored
  · rename_i found
    obtain ⟨inside, -⟩ := List.getElem?_eq_some_iff.mp found
    rw [next_eq, get, List.getElem?_append_left inside, found]
    exact stored
  · cases stored

/-! ## Whole runs -/

theorem get_after {store : Store} {handle : Nat} {data : Bytes}
    (stored : store.get handle = .ok data) (calls : List Call) :
    (store.after calls).get handle = .ok data := by
  induction calls generalizing store with
  | nil => exact stored
  | cons call rest inductionHypothesis => exact inductionHypothesis (get_next stored call)

theorem size_after (store : Store) (calls : List Call) :
    (store.after calls).size = store.size + issued (store.transcript calls) := by
  induction calls generalizing store with
  | nil => rfl
  | cons call rest inductionHypothesis =>
      have grown : (store.next call).size = store.size + call.stored?.toList.length := by
        rw [next_eq, size, List.length_append]
        rfl
      have counted : issued (store.transcript (call :: rest)) =
          call.stored?.toList.length + issued ((store.next call).transcript rest) := by
        rw [transcript, issued, List.countP_cons, created_reply, Nat.add_comm, ← issued]
        cases call.stored? <;> rfl
      rw [after, List.foldl_cons, ← after, inductionHypothesis, grown, counted, Nat.add_assoc]

/-- The handle of a blob is the number of blobs that were created before it, and what was stored
stays under it. -/
theorem handle_of_created {before : List Call} {call : Call}
    (created : call.created ((after {} before).reply call) = true) :
    ∃ data, call.arguments = [.bytes data] ∧
      (after {} before).reply call = .ok (.handle (issued (transcript {} before))) ∧
      ∀ later, (after {} (before ++ call :: later)).get (issued (transcript {} before)) =
        .ok data := by
  rw [created_reply] at created
  obtain ⟨data, stored⟩ := Option.isSome_iff_exists.mp created
  have size : (after {} before).size = issued (transcript {} before) := by
    rw [size_after]
    exact Nat.zero_add _
  refine ⟨data, by rw [Call.eq_of_stored? stored], ?_, fun later => ?_⟩
  · rw [reply_of_stored? stored, size]
  · have present : ((after {} before).next call).get (issued (transcript {} before)) =
        .ok data := by
      rw [← size, next_eq, stored, get, Store.size, Option.toList_some,
        List.getElem?_concat_length]
    rw [after, List.foldl_append]
    exact get_after present later

theorem transcript_keepMarked (store : Store) {marked : List (Call × Bool)}
    (asks : ∀ call, (call, false) ∈ marked → call.operation ≠ "createBlob") :
    store.transcript (keepMarked marked) =
      keepMarked ((store.transcript (marked.map Prod.fst)).zip (marked.map Prod.snd)) := by
  induction marked generalizing store with
  | nil => rfl
  | cons step rest inductionHypothesis =>
      obtain ⟨call, keep⟩ := step
      have later := fun store => inductionHypothesis store fun other member =>
        asks other (List.mem_cons_of_mem _ member)
      cases keep with
      | true =>
          have following := later (store.next call)
          rw [keepMarked] at following
          simp only [keepMarked, List.filter_cons_of_pos, List.map_cons, transcript, following,
            List.zip_cons_cons]
      | false =>
          have unchanged := next_of_query store (asks call List.mem_cons_self)
          have following := later store
          rw [keepMarked] at following
          simp [keepMarked, transcript, following, unchanged]

/-! ## What replies depend on -/

theorem reply_congr_of_container {call : Call} (reads : call.operation ∈ containerOperations)
    {first second : Store}
    (same : ∀ handle : Nat, call.arguments.head? = some (.integer handle) →
      first.get handle = second.get handle) : first.reply call = second.reply call := by
  by_cases fitting : ∃ query, Fits call.operation call.arguments query
  · obtain ⟨query, fits⟩ := fitting
    rw [reply, reply, call_of_fits fits, call_of_fits fits]
    obtain ⟨operation, arguments⟩ := call
    cases fits with
    | createBlob data => simp [containerOperations] at reads
    | listClasses | listMethods | listInstructions =>
        refine answer_congr (fun _ creates => ?_) fun _ named => ?_
        · cases creates
        · cases named
          exact same _ rfl
    | _ => rfl
  · obtain ⟨details, refused⟩ := call_of_unfit (not_exists.mp fitting)
    rw [reply, reply, refused, refused]

theorem reply_congr_of_decoder {call : Call}
    (decodes : call.operation = "decodeDer" ∨ call.operation = "decodeProto")
    (first second : Store) : first.reply call = second.reply call := by
  by_cases fitting : ∃ query, Fits call.operation call.arguments query
  · obtain ⟨query, fits⟩ := fitting
    rw [reply, reply, call_of_fits fits, call_of_fits fits]
    obtain ⟨operation, arguments⟩ := call
    cases fits with
    | createBlob | listClasses | listMethods | listInstructions => simp at decodes
    | _ => rfl
  · obtain ⟨details, refused⟩ := call_of_unfit (not_exists.mp fitting)
    rw [reply, reply, refused, refused]

theorem reply_of_negative {call : Call} (reads : call.operation ∈ containerOperations) {value : Int}
    (negative : value < 0) (given : call.arguments.head? = some (.integer value)) (store : Store) :
    ∃ details, store.reply call = .error (.invalidArgument call.operation details) := by
  have unfit : ∀ query, ¬ Fits call.operation call.arguments query := by
    intro query fits
    obtain ⟨operation, arguments⟩ := call
    cases fits with
    | listClasses | listMethods | listInstructions =>
        cases given
        omega
    | _ => simp [containerOperations] at reads
  obtain ⟨details, refused⟩ := call_of_unfit unfit
  exact ⟨details, by rw [reply, refused]⟩

/-- In every run on an empty store the blobs that are created get their numbers as handles, stay
under them, and nothing else is stored.  A query for a handle that is not yet issued finds nothing,
and a negative handle is an argument error.  A reply depends on the arguments and on what the handle
stands for, so that queries can be left out of a run or put into it.  Whether the arguments are to
blame is told by them alone, in the same words on every store, and before anything else. -/
theorem handles_stay_valid_and_queries_do_not_interfere :
    (∀ before call, call.created ((after {} before).reply call) = true →
      ∃ data, call.arguments = [.bytes data] ∧
        (after {} before).reply call = .ok (.handle (issued (transcript {} before))) ∧
        ∀ later, (after {} (before ++ call :: later)).get (issued (transcript {} before)) =
          .ok data) ∧
    (∀ (store : Store) call, call.created (store.reply call) = false → store.next call = store) ∧
    (∀ before call query handle, Fits call.operation call.arguments query →
      query.handle? = some handle → issued (transcript {} before) ≤ handle →
      (after {} before).reply call = .error (.handleNotFound handle)) ∧
    (∀ (store : Store) call value, call.operation ∈ containerOperations → value < 0 →
      call.arguments.head? = some (.integer value) →
      ∃ details, store.reply call = .error (.invalidArgument call.operation details)) ∧
    (∀ (first second : Store) call, call.operation ∈ containerOperations →
      (∀ handle : Nat, call.arguments.head? = some (.integer handle) →
        first.get handle = second.get handle) →
      first.reply call = second.reply call) ∧
    (∀ (first second : Store) call, call.operation = "decodeDer" ∨ call.operation = "decodeProto" →
      first.reply call = second.reply call) ∧
    (∀ (store : Store) marked, (∀ call, (call, false) ∈ marked → call.operation ≠ "createBlob") →
      store.transcript (keepMarked marked) =
        keepMarked ((store.transcript (marked.map Prod.fst)).zip (marked.map Prod.snd))) ∧
    (∀ (first second : Store) call fault, fault.kind = .argument →
      (first.reply call = .error fault ↔ second.reply call = .error fault)) ∧
    ∀ (store : Store) call, (∃ fault, store.reply call = .error fault ∧ fault.kind = .argument) ↔
      ∀ query, Fits call.operation call.arguments query → query.Idle := by
  refine ⟨fun before call created => handle_of_created created, ?_, ?_, ?_, ?_, ?_, ?_, ?_, ?_⟩
  · intro store call uncreated
    rw [created_reply, Option.isSome_eq_false_iff, Option.isNone_iff_eq_none] at uncreated
    rw [next_eq, uncreated, Option.toList_none, List.append_nil]
  · intro before call query handle fits named unissued
    have size := size_after {} before
    rw [reply, call_of_fits fits]
    refine answer_unissued named ?_
    rw [size]
    exact Nat.le_trans (Nat.le_of_eq (Nat.zero_add _)) unissued
  · intro store call value reads negative given
    exact reply_of_negative reads negative given store
  · intro first second call reads same
    exact reply_congr_of_container reads same
  · intro first second call decodes
    exact reply_congr_of_decoder decodes first second
  · intro store marked asks
    exact transcript_keepMarked store asks
  · intro first second call fault argument
    exact ⟨fun failure => reply_of_blames_arguments failure argument second,
      fun failure => reply_of_blames_arguments failure argument first⟩
  · intro store call
    exact blames_arguments_iff store call

end Store

end ByteListing.Host
