import ByteListing.CommandLine.Program

/-! # The program among files and streams

The program runs in a world of files and streams in which everything that is there can be read and
everything can be written.  Whatever the world, the program leaves it as it was if there is nothing
to be listed, and else it has written exactly the texts of the sources in front of the first that
cannot be listed: behind what was on the standard output, or as all that the output file holds. -/
set_option autoImplicit false
namespace ByteListing.CommandLine

/-- What the standard input holds, what was written to the standard output, what was reported, and
what is in the files that there are. -/
structure World where
  input : Bytes
  output : Bytes
  reports : String
  files : String → Option Bytes

namespace World

variable (world : World)

def given : Option String → Option Bytes
  | none => some world.input
  | some path => world.files path

def withFile (path : String) (content : Bytes) : World :=
  { world with files := fun other => if other = path then some content else world.files other }

/-- The world with a text on the standard output, behind what is there, or as all of a file. -/
def written : Option String → String → World
  | none, text => { world with output := world.output ++ Utf8.encode text.toList }
  | some path, text => world.withFile path (Utf8.encode text.toList)

def reported (report : String) : World := { world with reports := world.reports ++ report }

def append : Option String → String → World
  | none, text => { world with output := world.output ++ Utf8.encode text.toList }
  | some path, text =>
    world.withFile path ((world.files path).getD [] ++ Utf8.encode text.toList)

end World

/-- The operations in a world in which files that are there can be read, and all can be written. -/
def surroundings : System (StateM World) where
  readInput world := (.ok world.input, world)
  load path world :=
    match world.files path with
    | some data => (.ok data, world)
    | none => (.error "no such file", world)
  create path world := (.ok (), world.withFile path [])
  write output text world := (.ok (), world.append output text)
  report text world := ((), world.reported text)

/-! ## Steps of the program -/

theorem run_next {Result Next : Type} (step : StateM World Result)
    (next : Result → StateM World Next) (world : World) :
    (step >>= next : StateM World Next) world = next (step world).1 (step world).2 := rfl

theorem run_operation {Result Next : Type} (operation : StateM World Result)
    (next : Result → ExceptT Failure (StateM World) Next) (world : World) :
    (liftM operation >>= next : ExceptT Failure (StateM World) Next).run world =
      (next (operation world).1).run (operation world).2 := rfl

theorem run_part {Result Next : Type} {first : ExceptT Failure (StateM World) Result}
    {world after : World} {value : Result} (done : first.run world = (.ok value, after))
    (next : Result → ExceptT Failure (StateM World) Next) :
    (first >>= next).run world = (next value).run after := by
  have continued : (first >>= next).run world =
      ExceptT.bindCont next (first.run world).1 (first.run world).2 := rfl
  rw [continued, done]
  rfl

section Steps

variable {world : World} {options : Options}

theorem append_written (world : World) (output : Option String) (text more : String) :
    (world.written output text).append output more = world.written output (text ++ more) := by
  cases output with
  | none => simp [World.written, World.append, Utf8.encode]
  | some path =>
      simp only [World.written, World.append, World.withFile, if_true, Option.getD_some,
        Utf8.encode, String.toList_append, List.flatMap_append]
      congr 1
      funext other
      by_cases same : other = path <;> simp [same]

theorem run_readAll {input : Bytes} (given : world.given options.input = some input) :
    (readAll surroundings options).run world = (.ok input, world) := by
  rw [readAll]
  cases path : options.input with
  | none =>
      rw [path] at given
      obtain rfl := Option.some.inj given
      rfl
  | some file =>
      rw [path] at given
      have found : world.files file = some input := given
      have loaded : surroundings.load file world = (.ok input, world) := by
        simp only [surroundings, found]
      refine (run_operation (surroundings.load file) _ world).trans ?_
      rw [loaded]
      rfl

theorem run_createOutput (world : World) (options : Options) :
    (createOutput surroundings options).run world = (.ok (), world.written options.output "") := by
  rw [createOutput]
  cases options.output with
  | none => simp [World.written, Utf8.encode]; rfl
  | some path => rfl

theorem run_writeAll (world : World) (options : Options) (text : String) (texts : List String) :
    (writeAll surroundings options texts).run (world.written options.output text) =
      (.ok (), world.written options.output (text ++ String.join texts)) := by
  induction texts generalizing text with
  | nil =>
      rw [String.join_nil, String.append_empty]
      rfl
  | cons next rest inductionHypothesis =>
      rw [String.join_cons, ← String.append_assoc, ← inductionHypothesis, ← append_written]
      rfl

end Steps

/-! ## Whole runs -/

def conclusion (options : Options) : Option Fault → Except Failure Unit
  | none => .ok ()
  | some fault => .error (Failure.ofFault options fault)

section Runs

variable {world : World} {options : Options} {input : Bytes}
  (given : world.given options.input = some input)
include given

theorem run_list_unprepared {fault : Fault}
    (refused : Der.prepare options.request input = .error fault) :
    (list surroundings options).run world = (.error (Failure.ofFault options fault), world) := by
  rw [list, run_part (run_readAll given), refused]
  rfl

theorem run_list_prepared {sources : List Der.Source} {texts : List String} {fault : Option Fault}
    (prepared : Der.prepare options.request input = .ok sources)
    (listed : Der.Source.renderUntil {} 0 sources = (texts, fault)) :
    (list surroundings options).run world =
      (conclusion options fault, world.written options.output (String.join texts)) := by
  have created := run_createOutput world options
  have written := run_writeAll world options "" texts
  rw [String.empty_append] at written
  rw [list, run_part (run_readAll given), prepared]
  dsimp only
  rw [run_part created, listed]
  dsimp only
  rw [run_part written]
  cases fault with
  | none => rfl
  | some fault => rfl

end Runs

section Codes

variable {environment : Option String} {arguments : List String} {options : Options}
  (read : Options.ofArguments environment arguments = .ok options) {world after : World}
include read

theorem run_succeeded (ended : (list surroundings options).run world = (.ok (), after)) :
    run surroundings environment arguments world = (0, after) := by
  rw [run, read]
  refine (run_next (list surroundings options).run _ world).trans ?_
  rw [ended]
  rfl

theorem run_failed {failure : Failure}
    (ended : (list surroundings options).run world = (.error failure, after)) :
    run surroundings environment arguments world = (1, after.reported failure.text) := by
  rw [run, read]
  refine (run_next (list surroundings options).run _ world).trans ?_
  rw [ended]
  rfl

end Codes

end ByteListing.CommandLine
