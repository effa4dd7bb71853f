import VirtualUsers.Bridge
import VirtualUsers.Registry
/-!
# Registered users

Who is registered is kept in the store and, if a registry is set, in its file. A file that cannot be
written leaves a warning; what it holds is left alone.
-/

namespace VirtualUsers

namespace Registry

def load (files : FileTree) (path : String) : Except Failure (List String) :=
  if files.exists? path then files.readLines path >>= read else .ok []

def idsOfKeys (keys : List Key) : Except Failure (List String) :=
  match keys.mapM Key.text? with
  | some ids => .ok ids.mergeSort
  | none => .error .wrongType

/-- Makes a registry file, and a directory for it if there is none, for its owner alone. -/
def create (path : String) (ids : List String) : Attempt FileTree Unit := do
  let directory := Path.directoryPart path
  if directory != "" then
    set (← Attempt.ofResult ((← get).makePrivateDirectory directory))
  let text ← Attempt.ofResult (write ids "")
  let files ← Attempt.ofResult ((← get).write path text)
  set (files.setMode path FileTree.privateFileMode)

def save (path : String) (keys : List Key) : Attempt FileTree Unit := do
  match (← get).find? path with
  | .error p => throw (.file p path)
  | .ok none => create path (← Attempt.ofResult (idsOfKeys keys))
  | .ok (some _) =>
    let files ← get
    let text ← Attempt.ofResult (files.readLines path)
    let ids ← Attempt.ofResult (idsOfKeys keys)
    let text ← Attempt.ofResult (write ids text)
    set (← Attempt.ofResult (files.write path text))

end Registry

namespace Bridge

open Attempt (ofResult)

def saveRegistered (path : String) : Act Unit := do
  let keys := (← get).store.registered
  let saved := Attempt.within Bridge.files (fun files b => { b with files })
    (Registry.save path keys)
  match ← Attempt.result saved with
  | .ok _ => return
  | .error (.file p at_) =>
    warn "mxintent.state" ("Registered users persist failed path=" ++ path ++ ": "
      ++ FileProblem.message p at_)
  | .error e => throw e

def markRegistered (user : Value) : Act Unit := do
  let key ← ofResult user.toKey
  unless (← get).store.registered.contains key do
    modify fun (b : Bridge) => { b with store := b.store.register key }
    match (← get).registryPath with
    | some path => saveRegistered path
    | none => return

/-- The path of the registry that the settings ask for. There is none if nothing is left of it once
references are replaced. -/
def registryPathOf (env : Environment) : Value → Except Failure (Option String)
  | .text path =>
    let path := env.expand path
    .ok (if path == "" then none else some path)
  | v => if v.truthy then .error .wrongType else .ok none

/-- Starts with the users of the registry. What was known before is kept if that fails. -/
def load : Act Unit := do
  let b ← get
  let path ← ofResult (registryPathOf b.environment b.settings.registryPath)
  let ids ← ofResult ((path.map (Registry.load b.files)).getD (.ok []))
  let store : Store := ids.foldl (fun s id => s.register (.text id)) {}
  set { b with store, registryPath := path }

end Bridge

end VirtualUsers
