import ByteListing.Dex.Classes
import ByteListing.Host.Call

/-! # Answers to calls

A store keeps byte strings under handles, which are the numbers in which they were stored.  Nothing
is ever taken out, so a handle stays valid and keeps its meaning.

A query is answered from its arguments and from what is stored under the handle it names.  Only
a query that stores something changes the store.  Containers are read again for every query. -/
set_option autoImplicit false
namespace ByteListing.Host

inductive Answer where
  | handle (handle : Nat)
  | lines (lines : List String)
  | text (text : String)
deriving Repr, DecidableEq

structure Store where
  blobs : List Bytes := []
deriving Repr, DecidableEq

namespace Store

def put (store : Store) (data : Bytes) : Nat × Store :=
  (store.blobs.length, ⟨store.blobs ++ [data]⟩)

def get (store : Store) (handle : Nat) : Except Fault Bytes :=
  match store.blobs[handle]? with
  | some data => .ok data
  | none => .error (.handleNotFound handle)

def size (store : Store) : Nat := store.blobs.length

def totalLength (store : Store) : Nat := store.blobs.flatten.length

def listClasses (store : Store) (handle : Nat) : Except Fault (List String) :=
  (store.get handle).bind Dex.listClasses

def listMethods (store : Store) (handle : Nat) (className : String) :
    Except Fault (List String) := do
  let methods ← Dex.listMethods (← store.get handle) className
  return methods.map Dex.Method.signature

def listInstructions (store : Store) (handle : Nat) (className methodName : String) :
    Except Fault (List String) := do
  let (pool, instructions) ← Dex.listInstructions (← store.get handle) className methodName
  return instructions.map (Dex.Instruction.text pool)

def answer (store : Store) (query : Query) : Except Fault Answer × Store :=
  match query with
  | .createBlob data =>
    let (handle, changed) := store.put data
    (.ok (.handle handle), changed)
  | .listClasses handle => ((store.listClasses handle).map .lines, store)
  | .listMethods handle className => ((store.listMethods handle className).map .lines, store)
  | .listInstructions handle className methodName =>
    ((store.listInstructions handle className methodName).map .lines, store)
  | .decodeDer data request => ((Der.renderRequest {} request data).map .text, store)
  | .decodeProto data type => ((Wire.renderAs {} type data).map .text, store)

def call (store : Store) (operation : String) (arguments : Arguments) :
    Except Fault Answer × Store :=
  match readCall operation arguments with
  | .ok query => store.answer query
  | .error fault => (.error fault, store)

end Store

end ByteListing.Host
