import ByteListing.Host.Answer
import ByteListing.Proofs.Choices
import ByteListing.Proofs.CommandLine.World
import ByteListing.Proofs.Der.Sources

/-! # The same listing from a host, from a function and from the program

There are three ways to a listing of elements: the function that lists what a request says, the call
of a host, and the program.  They agree on every input and on every choice: either all of them give
the same text, or all of them fail.  Where a source cannot be listed, the program has written
exactly the listings of the sources in front of it, and where nothing can be prepared, nothing. -/
set_option autoImplicit false
namespace ByteListing

open CommandLine Host Der

/-- What comes of a listing: of the function, of a call on a store, and of the program in a world
that gives it the same input. -/
inductive Outcome (options : Options) (input : Bytes) (store : Store) (world : World) :
    Except Fault String → Except Fault Answer × Store → UInt32 × World → Prop
  /-- Nothing can be prepared.  No file was created. -/
  | unprepared {fault : Fault} : prepare options.choice.request input = .error fault →
      Outcome options input store world (.error fault) (.error fault, store)
        (1, world.reported (Failure.ofFault options fault).text)
  | complete {sources : List Source} {texts : List String} :
      prepare options.choice.request input = .ok sources → Listed {} 0 sources texts →
      Outcome options input store world (.ok (String.join texts))
        (.ok (.text (String.join texts)), store)
        (0, world.written options.output (String.join texts))
  /-- All sources were listed that are in front of the first that cannot be. -/
  | stopped {before after : List Source} {source : Source} {texts : List String} {fault : Fault} :
      prepare options.choice.request input = .ok (before ++ source :: after) →
      Listed {} 0 before texts → source.render {} before.length = .error fault →
      Outcome options input store world (.error fault) (.error fault, store)
        (1, (world.written options.output (String.join texts)).reported
          (Failure.ofFault options fault).text)

theorem Outcome.of_text {options : Options} {input : Bytes} {store : Store} {world : World}
    {text : String} {reply : Except Fault Answer × Store} {ran : UInt32 × World}
    (outcome : Outcome options input store world (.ok text) reply ran) :
    reply = (.ok (.text text), store) ∧ ran = (0, world.written options.output text) := by
  generalize whole : (Except.ok text : Except Fault String) = result at outcome
  cases outcome with
  | unprepared => cases whole
  | complete =>
      obtain rfl := Except.ok.inj whole
      exact ⟨rfl, rfl⟩
  | stopped => cases whole

theorem call_of_gives {values : Arguments} {input : Bytes} {choice : Choice}
    (gives : Gives values input choice) (store : Store) :
    store.call "decodeDer" values =
      ((renderRequest {} choice.request input).map .text, store) := by
  rw [Store.call, readCall_of_gives gives]
  rfl

section

variable {environment : Option String} {arguments : List String} {options : Options}
  {values : Arguments} {input : Bytes} {world : World}

theorem outcome_of_choice (store : Store)
    (read : Options.ofArguments environment arguments = .ok options)
    (gives : Gives values input options.choice)
    (given : world.given options.input = some input) :
    Outcome options input store world (renderRequest {} options.choice.request input)
      (store.call "decodeDer" values) (run surroundings environment arguments world) := by
  -- The program makes its own request, which is that for the same choice.
  have asked := options.request_eq_choice_request
  rw [call_of_gives gives store]
  cases prepared : prepare options.choice.request input with
  | error fault =>
      have ended := run_list_unprepared given (asked ▸ prepared)
      rw [renderRequest, prepared, run_failed read ended]
      exact .unprepared prepared
  | ok sources =>
      obtain ⟨texts, fault, listed⟩ : ∃ texts fault,
          Source.renderUntil {} 0 sources = (texts, fault) := ⟨_, _, rfl⟩
      have ended := run_list_prepared given (asked ▸ prepared) listed
      rw [renderRequest, prepared, Except.bind, listed]
      cases fault with
      | none =>
          rw [run_succeeded read ended]
          exact .complete prepared (listed_of_renderUntil listed)
      | some fault =>
          obtain ⟨before, source, after, rfl, inFront, stuck⟩ := split_of_renderUntil listed
          rw [Nat.zero_add] at stuck
          rw [run_failed read ended]
          exact .stopped prepared inFront stuck

/-! ## All blocks -/

theorem sources_of_all {request : Request} (all : request.pem = .all) {sources : List Source}
    (prepared : prepare request input = .ok sources) :
    sources = (Pem.all input).map fun block => .block block request.password true := by
  rw [prepare, all] at prepared
  cases found : Pem.all input with
  | nil =>
      rw [found] at prepared
      cases prepared
  | cons block rest =>
      rw [found] at prepared
      exact (Except.ok.inj prepared).symm

theorem text_of_all {request : Request} (all : request.pem = .all)
    {sources others : List Source} {texts : List String}
    (prepared : prepare request input = .ok (sources ++ others))
    (listed : Listed {} 0 sources texts) :
    ∃ blocks contents, blocks <+: Pem.all input ∧ blocks.length = sources.length ∧
      Holding request.password blocks contents ∧
      String.join texts = "\n".intercalate (List.zipWith (labelled {}) blocks contents) := by
  obtain ⟨blocks, rest, whole, rfl, -⟩ :=
    List.map_eq_append_iff.mp (sources_of_all all prepared).symm
  obtain ⟨contents, held, joined⟩ := join_listed_labelled listed
  exact ⟨blocks, contents, ⟨rest, whole.symm⟩, (List.length_map _).symm, held, joined⟩

end

/-- Every choice can be spelled for the program and for a host, and whatever the spelling, the
function, the call and the program agree.  If all blocks are asked for, then there is one source for
each of them, and what is listed are the blocks in order, each under its label and apart from the
one before it. -/
theorem front_ends_agree :
    (∀ (environment : Option String) (input : Bytes) (choice : Choice),
      ∃ arguments options values, Options.ofArguments environment arguments = .ok options ∧
        options.choice = choice ∧ Gives values input choice) ∧
    ∀ (store : Store) (environment : Option String) (arguments : List String) (options : Options)
      (values : Arguments) (input : Bytes) (world : World),
      Options.ofArguments environment arguments = .ok options →
      Gives values input options.choice → world.given options.input = some input →
      Outcome options input store world (renderRequest {} options.choice.request input)
        (store.call "decodeDer" values) (run surroundings environment arguments world) ∧
      (options.allPem = true → ∀ sources others texts,
        prepare options.choice.request input = .ok (sources ++ others) →
        Listed {} 0 sources texts →
        (sources ++ others).length = (Pem.all input).length ∧
        ∃ blocks contents, blocks <+: Pem.all input ∧ blocks.length = sources.length ∧
          Holding options.choice.request.password blocks contents ∧
          String.join texts = "\n".intercalate (List.zipWith (labelled {}) blocks contents)) := by
  refine ⟨exists_spelling, ?_⟩
  intro store environment arguments options values input world read gives given
  refine ⟨outcome_of_choice store read gives given, ?_⟩
  intro enabled sources others texts prepared listed
  have all : options.choice.request.pem = .all := by
    rw [Choice.request]
    exact if_pos enabled
  have count := congrArg List.length (sources_of_all all prepared)
  rw [List.length_map] at count
  exact ⟨count, text_of_all all prepared listed⟩

def twoBlocks : Bytes :=
  Utf8.encode ("-----BEGIN A-----\nBQA=\n-----END A-----\n" ++
    "-----BEGIN B-----\nBQA=\n-----END B-----\n").toList

def twoBlocksWorld : World := ⟨twoBlocks, [], "", fun _ => none⟩

theorem front_ends_agree_two_blocks :
    renderRequest {} { pem := .all } twoBlocks = .ok "# A\nNULL {}\n\n# B\nNULL {}\n" ∧
    Store.call {} "decodeDer" [.bytes twoBlocks, .null, .boolean true] =
      (.ok (.text "# A\nNULL {}\n\n# B\nNULL {}\n"), {}) ∧
    run surroundings none (Choice.arguments { allPem := true }) twoBlocksWorld =
      (0, twoBlocksWorld.written none "# A\nNULL {}\n\n# B\nNULL {}\n") := by
  have listed : renderRequest {} { pem := .all } twoBlocks =
      .ok "# A\nNULL {}\n\n# B\nNULL {}\n" := by
    decide +kernel
  have gives : Gives [.bytes twoBlocks, .null, .boolean true] twoBlocks { allPem := true } :=
    ⟨by decide, rfl, .null, .value true, .absent, .absent⟩
  have given : twoBlocksWorld.given none = some twoBlocks := rfl
  have agreed := front_ends_agree.2 {} none _ _ _ twoBlocks twoBlocksWorld
    (ofArguments_arguments none { allPem := true }) gives given
  have requestEq : (Options.ofChoice { allPem := true }).choice.request = { pem := .all } := by
    decide
  have outcome := agreed.1
  rw [requestEq, listed] at outcome
  exact ⟨listed, outcome.of_text⟩

end ByteListing
