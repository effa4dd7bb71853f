import VirtualUsers.Homeserver.Request
import VirtualUsers.Journal
import VirtualUsers.Store
import VirtualUsers.Tally
/-!
# The bridge

The state of a running bridge: its settings and surroundings, what it knows, what it counted, whom
it acts as, and its traffic with the homeserver.
-/

namespace VirtualUsers

/-- Acts towards the homeserver as one user, and numbers the transactions of that user. -/
structure Client where
  homeserver : String
  token : Value
  user : Value
  timeout : Double
  issued : Nat := 0
deriving Inhabited

abbrev ClientId := Nat

/-- Acts as one virtual user. An inviter helps it into rooms that it may not join by itself. -/
structure Intent where
  client : ClientId
  localpart : String
  userId : String
  inviter : Option ClientId
  puppet : Bool
deriving DecidableEq

/-- A request, what was known and counted when it was sent, and its answer. -/
structure Exchange where
  sender : Value
  request : Request
  store : Store
  tally : Tally
  answer : Answer

/-- The state of a running bridge. -/
structure Bridge where
  environment : Environment := {}
  settings : Settings := {}
  registryPath : Option String := none
  now : Int := 0
  files : FileTree := {}
  journal : Journal := {}
  store : Store := {}
  tally : Tally := .zero
  clients : List Client := []
  clientOf : Table Key ClientId := []
  intents : Table String Intent := []
  answers : List Answer := []
  traffic : List Exchange := []

/-- What a bridge does. -/
abbrev Act := Attempt Bridge

namespace Bridge

def note (name : String) (level : Int) (text : String) : Act Unit :=
  modify fun (b : Bridge) =>
    let after := b.journal.write b.files (Journal.Note.mk name level text)
    { b with journal := after.1, files := after.2 }

def debug (name text : String) : Act Unit := note name 10 text

def info (name text : String) : Act Unit := note name 20 text

def warn (name text : String) : Act Unit := note name 30 text

def onStore (x : Attempt Store α) : Act α :=
  Attempt.within Bridge.store (fun store b => { b with store }) x

def ask (question : Store → Except Failure α) : Act α := do
  Attempt.ofResult (question (← get).store)

def count (c : Counter) (n : Int) : Act Unit :=
  modify fun (b : Bridge) => { b with tally := b.tally.add c n }

def client (c : ClientId) : Act Client := do
  return ((← get).clients[c]?).getD default

def exchange (sender : Client) (request : Request) : Act Answer := do
  let b ← get
  let answer := b.answers.head?.getD .empty
  let exchange : Exchange := {
    sender := sender.user, request, store := b.store, tally := b.tally, answer }
  set { b with answers := b.answers.tail, traffic := b.traffic ++ [exchange] }
  return answer

end Bridge

end VirtualUsers
