import VirtualUsers.Failure
import VirtualUsers.Number.Decimal
import VirtualUsers.Store
import VirtualUsers.Table
/-!
# The tally

Counts of what was done and of what could be left out, and the report on them.
-/

namespace VirtualUsers

/-- What is counted. -/
inductive Counter where
  | registrations
  | registrationsInUse
  | joins
  | joinCacheHits
  | joinInviteFallbacks
  | invites
  | invitesAlreadyMember
  | kicks
  | bans
  | unbans
  | eventsSent
  | stateEventsSent
  | stateAbsorbed
  | typingSent
  | typingSkipped
  | powerLevelNoops
deriving DecidableEq

namespace Counter

def all : List Counter :=
  [registrations, registrationsInUse, joins, joinCacheHits, joinInviteFallbacks, invites,
    invitesAlreadyMember, kicks, bans, unbans, eventsSent, stateEventsSent, stateAbsorbed,
    typingSent, typingSkipped, powerLevelNoops]

def name : Counter → String
  | registrations => "registrations"
  | registrationsInUse => "registrations_in_use"
  | joins => "joins"
  | joinCacheHits => "join_cache_hits"
  | joinInviteFallbacks => "join_invite_fallbacks"
  | invites => "invites"
  | invitesAlreadyMember => "invites_already_member"
  | kicks => "kicks"
  | bans => "bans"
  | unbans => "unbans"
  | eventsSent => "events_sent"
  | stateEventsSent => "state_events_sent"
  | stateAbsorbed => "state_absorbed"
  | typingSent => "typing_sent"
  | typingSkipped => "typing_skipped"
  | powerLevelNoops => "power_level_noops"

end Counter

/-- Counts under their names. Names of other counters may be added. -/
structure Tally where
  counts : Table Key Int
deriving DecidableEq, Inhabited

namespace Tally

def zero : Tally :=
  ⟨Counter.all.map fun c => (.text c.name, 0)⟩

def countOf (name : Key) (t : Tally) : Int :=
  (Table.get? name t.counts).getD 0

def count (c : Counter) (t : Tally) : Int :=
  t.countOf (.text c.name)

def addTo (name : Key) (n : Int) (t : Tally) : Tally :=
  ⟨Table.put name (t.countOf name + n) t.counts⟩

def add (c : Counter) (n : Int) (t : Tally) : Tally :=
  t.addTo (.text c.name) n

def increase (name delta : Value) (t : Tally) : Except Failure Tally := do
  return t.addTo (← name.toKey) (← delta.toInt)

def read (name : Value) (t : Tally) : Except Failure Int :=
  name.toKey.map fun key => t.countOf key

def line (heading : String) (counts : List (String × Int)) : String :=
  heading ++ ": " ++ " ".intercalate (counts.map fun (name, n) => name ++ "=" ++ toString n)

def storeLine (c : StoreCounts) : String :=
  line "cache" [("registered", c.registered), ("rooms", c.rooms), ("memberships", c.memberships),
    ("joined", c.joined), ("power_levels", c.powerLevels)]

def programTitle := "mxintent 0.1.0"

/-- The report after a time given in milliseconds, with a line on a store if one is given. -/
def report (uptime : Int) (store? : Option StoreCounts) (t : Tally) : String :=
  let group (heading : String) (counters : List (String × Counter)) : String :=
    line heading (counters.map fun (name, c) => (name, t.count c))
  "\n".intercalate <|
    [programTitle ++ " stats", "uptime_s=" ++ (Double.ofQuotient uptime 1000).writeTenths]
      ++ store?.toList.map storeLine
      ++ [ group "registration" [("fresh", .registrations), ("in_use", .registrationsInUse)],
        group "joins" [("joined", .joins), ("cache_hits", .joinCacheHits),
          ("invite_fallbacks", .joinInviteFallbacks)],
        group "membership" [("invites", .invites), ("already_member", .invitesAlreadyMember),
          ("kicks", .kicks), ("bans", .bans), ("unbans", .unbans)],
        group "events" [("sent", .eventsSent), ("state_sent", .stateEventsSent),
          ("state_absorbed", .stateAbsorbed)],
        group "dedup" [("typing_sent", .typingSent), ("typing_skipped", .typingSkipped),
          ("power_level_noops", .powerLevelNoops)] ]

end Tally

end VirtualUsers
