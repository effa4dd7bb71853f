import VirtualUsers.Proofs.Payloads
import VirtualUsers.Store
/-!
# Levels that are edited

Power levels come back from the content that they give, whatever was edited. What an edit makes of
the values of a draft is what `PowerLevels.grant` makes of the levels: the level of one user is the
given one, and nothing else is changed.
-/

namespace VirtualUsers

namespace Value

theorem int_same_iff (m n : Int) : (int m).same (int n) = true ↔ m = n := by
  simp [same, sameScalar, wholeNumber?]

theorem text_same_text (s t : String) : (text s).same (text t) = decide (s = t) := by
  simp only [same, sameScalar]
  exact Bool.beq_eq_decide_eq s t

end Value

namespace PowerLevels

def content (l : PowerLevels) : Value :=
  .record [
    ("users", levelMap l.users),
    ("users_default", .int l.usersDefault),
    ("events", levelMap l.events),
    ("events_default", .int l.eventsDefault),
    ("state_default", .int l.stateDefault),
    ("ban", .int l.ban),
    ("kick", .int l.kick),
    ("redact", .int l.redact),
    ("invite", .int l.invite)]

/-- The levels with a level for one user. A user at the default of the room has no entry. -/
def grant (user : String) (level : Int) (l : PowerLevels) : PowerLevels :=
  { l with
    users :=
      if level = l.usersDefault then l.users.filter fun e => e.1 ≠ user
      else Table.put user level l.users }

structure DiffersAt (user : String) (l l' : PowerLevels) : Prop where
  entries : ∀ other, other ≠ user → l'.users.lookup other = l.users.lookup other
  rest : l' = { l with users := l'.users }

theorem DiffersAt.userLevel {user : String} {l l' : PowerLevels} (h : DiffersAt user l l')
    {other : String} (hother : other ≠ user) : l'.userLevel other = l.userLevel other := by
  rw [PowerLevels.userLevel, PowerLevels.userLevel, h.entries other hother, h.rest]

/-! ## Entries -/

theorem lookup_eq_get? (user : String) (levels : List (String × Int)) :
    levels.lookup user = Table.get? user levels := by
  induction levels with
  | nil => rfl
  | cons e rest ih =>
    obtain ⟨name, n⟩ := e
    by_cases h : name = user
    · simp [Table.get?, h]
    · have hother : (user == name) = false := beq_false_of_ne (Ne.symm h)
      simp only [List.lookup_cons, hother, Table.get?, if_neg h, ih]

theorem get?_dropped (user other : String) (levels : List (String × Int)) :
    Table.get? other (levels.filter fun e => e.1 ≠ user) =
      if other = user then none else Table.get? other levels := by
  induction levels with
  | nil => simp
  | cons e rest ih =>
    obtain ⟨name, n⟩ := e
    by_cases hname : name = user
    · have hdropped : ((name, n) :: rest).filter (fun e => e.1 ≠ user) =
          rest.filter fun e => e.1 ≠ user := List.filter_cons_of_neg (by simp [hname])
      rw [hdropped, ih, Table.get?]
      split
      · rfl
      · next hother => rw [if_neg (fun h => hother (h.symm.trans hname))]
    · have hkept : ((name, n) :: rest).filter (fun e => e.1 ≠ user) =
          (name, n) :: rest.filter fun e => e.1 ≠ user := List.filter_cons_of_pos (by simp [hname])
      rw [hkept, Table.get?, Table.get?, ih]
      by_cases hother : name = other
      · rw [if_pos hother, if_pos hother, if_neg (fun h => hname (hother.trans h))]
      · rw [if_neg hother, if_neg hother]

/-! ## A level that is granted -/

section Grant

variable (user : String) (level : Int) (l : PowerLevels)

/-- Who is granted a level has it as an entry, unless it is the default. -/
theorem lookup_grant (other : String) :
    (l.grant user level).users.lookup other =
      if other = user then if level = l.usersDefault then none else some level
      else l.users.lookup other := by
  rw [lookup_eq_get?, lookup_eq_get?]
  by_cases h : level = l.usersDefault
  · simp only [grant, if_pos h, get?_dropped]
  · simp only [grant, if_neg h, Table.get?_put]

@[simp] theorem userLevel_grant : (l.grant user level).userLevel user = level := by
  rw [userLevel, lookup_grant, if_pos rfl]
  split
  · next h => exact h.symm
  · rfl

theorem differsAt_grant : DiffersAt user l (l.grant user level) :=
  ⟨fun other hother => by rw [lookup_grant, if_neg hother], rfl⟩

end Grant

/-! ## The values of a draft -/

section Drafts

variable (user : String) (level : Int) (levels : List (String × Int)) (l : PowerLevels)

abbrev entries (levels : List (String × Int)) : List (Value × Value) :=
  levels.map fun (k, n) => (.text k, .int n)

theorem levelMap_eq : levelMap levels = .map (entries levels) := by
  rw [levelMap, Value.record, List.map_map]
  rfl

theorem levelsOf_entries (default : Int) : levelsOf default (entries levels) = .ok levels := by
  induction levels with
  | nil => rfl
  | cons e rest ih =>
    obtain ⟨name, n⟩ := e
    rw [entries, List.map_cons, levelsOf, ih]
    rfl

/-- Levels come back from the content that they give. -/
theorem ofContent_content : ofContent l.content = .ok l := by
  have hlevels (default : Int) (levels : List (String × Int)) :
      levelsOfValue default (levelMap levels) = .ok levels := by
    rw [levelMap_eq, levelsOfValue, levelsOf_entries]
  have husers : l.content.field "users" = .ok (levelMap l.users) := rfl
  have hevents : l.content.field "events" = .ok (levelMap l.events) := rfl
  rw [ofContent, husers, hevents]
  change (levelsOfValue _ (levelMap l.users) >>= fun _ => levelsOfValue _ (levelMap l.events) >>=
    fun _ => _) = _
  rw [hlevels, hlevels]
  rfl

@[simp] theorem finish_draft : l.draft.finish = .ok l :=
  ofContent_content l

theorem ofRecord_draft : Content.ofRecord l.draft.toValue = .ok l.content := rfl

/-- Levels that are set are kept as they are. -/
theorem ofValue_draft : PowerRecord.ofValue l.draft.toValue = .ok (.levels l) := by
  change l.draft.finish.map PowerRecord.levels = _
  rw [finish_draft]
  rfl

theorem lookup_entries :
    Draft.lookup (.text user) (entries levels) = (levels.lookup user).map .int := by
  induction levels with
  | nil => rfl
  | cons e rest ih =>
    obtain ⟨name, n⟩ := e
    by_cases h : name = user
    · simp [Draft.lookup, Value.text_same_text, h]
    · have hother : (user == name) = false := beq_false_of_ne (Ne.symm h)
      have hnext : Draft.lookup (.text user) (entries ((name, n) :: rest)) =
          Draft.lookup (.text user) (entries rest) := by
        simp [Draft.lookup, Value.text_same_text, h]
      rw [hnext, ih, List.lookup_cons, hother]

theorem userLevel_draft : l.draft.userLevel (.text user) = .ok (.int (l.userLevel user)) := by
  rw [Draft.userLevel, draft, levelMap_eq]
  dsimp only
  rw [lookup_entries, userLevel]
  cases l.users.lookup user <;> rfl

theorem dropUser_levelMap : Draft.dropUser (.text user) (levelMap levels) =
    .ok (levelMap (levels.filter fun e => e.1 ≠ user)) := by
  have hkept : (entries levels).filter (fun e => !e.1.same (.text user)) =
      entries (levels.filter fun e => e.1 ≠ user) := by
    rw [entries, List.filter_map]
    congr 1
    refine List.filter_congr fun e _ => ?_
    simp [Value.text_same_text]
  rw [levelMap_eq, levelMap_eq, ← hkept]
  cases levels <;> rfl

theorem enterUser_levelMap : Draft.enterUser (.text user) level (levelMap levels) =
    .ok (levelMap (Table.put user level levels)) := by
  have hput : Value.put (.text user) (.int level) (entries levels) =
      entries (Table.put user level levels) := by
    induction levels with
    | nil => rfl
    | cons e rest ih =>
      obtain ⟨name, n⟩ := e
      by_cases h : name = user
      · simp [Value.put, Table.put, Value.text_same_text, h]
      · simp only [entries] at ih
        simp [Value.put, Table.put, Value.text_same_text, h, ih]
  rw [levelMap_eq, levelMap_eq, ← hput]
  rfl

/-- An edit of the values is an edit of the levels. -/
theorem setUserLevel_draft :
    l.draft.setUserLevel (.text user) (.int level) = .ok (l.grant user level).draft := by
  by_cases h : level = l.usersDefault
  · have hsame : (Value.int level).same l.draft.usersDefault = true :=
      (Value.int_same_iff level l.usersDefault).mpr h
    rw [Draft.setUserLevel, if_pos hsame]
    change (Draft.dropUser (.text user) (levelMap l.users) >>= fun users =>
      .ok { l.draft with users }) = _
    rw [dropUser_levelMap]
    simp only [grant, if_pos h]
    rfl
  · have hdiffers : ¬ (Value.int level).same l.draft.usersDefault = true :=
      fun hsame => h ((Value.int_same_iff level l.usersDefault).mp hsame)
    rw [Draft.setUserLevel, if_neg hdiffers]
    change (Draft.enterUser (.text user) level (levelMap l.users) >>= fun users =>
      .ok { l.draft with users }) = _
    rw [enterUser_levelMap]
    simp only [grant, if_neg h]
    rfl

end Drafts

/-! ## Content that is read and written -/

/-- What the keys of the content hold by default, but for the levels of the users. -/
def defaults : List (String × Value) :=
  [("users_default", .int DefaultLevel.users), ("events", .map []),
    ("events_default", .int DefaultLevel.events), ("state_default", .int DefaultLevel.state),
    ("ban", .int DefaultLevel.ban), ("kick", .int DefaultLevel.kick),
    ("redact", .int DefaultLevel.redact), ("invite", .int DefaultLevel.invite)]

def keys : List String :=
  "users" :: defaults.map (·.1)

/-- Content as the protocol has it: the levels are whole numbers. Other keys hold anything. -/
structure WellFormed (content : List (Value × Value)) : Prop where
  maps : ∀ key ∈ ["users", "events"], ∀ v, Value.lookup? key content = some v →
    ∃ levels, v = levelMap levels
  numbers : ∀ key ∈ keys, key ∉ ["users", "events"] → ∀ v, Value.lookup? key content = some v →
    ∃ n, v = .int n

/-- The body gives the levels that some content gives, but for one user, and has no other keys. -/
structure GivesAgain (user : String) (content : List (Value × Value)) (body : Value) : Prop where
  fields : ∀ d ∈ defaults,
    body.field? d.1 = .ok (some ((Value.lookup? d.1 content).getD d.2))
  users : ∃ users users', (Value.lookup? "users" content).getD (.map []) = levelMap users ∧
    body.field? "users" = .ok (some (levelMap users')) ∧
    ∀ other, other ≠ user → users'.lookup other = users.lookup other
  rest : ∀ key, key ∉ keys → body.field? key = .ok none

section Content

variable {content : List (Value × Value)} {l l' : PowerLevels} {user : String}

theorem WellFormed.number (h : WellFormed content) (key : String) (hkey : key ∈ keys)
    (hnumber : key ∉ ["users", "events"]) (default : Int) :
    ∃ n, (Value.map content).field key >>= Value.toIntOr default = .ok n ∧
      (Value.lookup? key content).getD (.int default) = .int n := by
  rw [Value.field_map]
  cases hv : Value.lookup? key content with
  | none => exact ⟨default, rfl, rfl⟩
  | some v =>
    obtain ⟨n, rfl⟩ := h.numbers key hkey hnumber v hv
    exact ⟨n, rfl, rfl⟩

theorem WellFormed.map (h : WellFormed content) (key : String) (hkey : key ∈ ["users", "events"])
    (default : Int) :
    ∃ levels, (Value.map content).field key >>= levelsOfValue default = .ok levels ∧
      (Value.lookup? key content).getD (.map []) = levelMap levels := by
  rw [Value.field_map]
  cases hv : Value.lookup? key content with
  | none => exact ⟨[], rfl, rfl⟩
  | some v =>
    obtain ⟨levels, rfl⟩ := h.maps key hkey v hv
    refine ⟨levels, ?_, rfl⟩
    change levelsOfValue default (levelMap levels) = _
    rw [levelMap_eq, levelsOfValue, levelsOf_entries]

/-- Every key of well-formed content comes back from the levels that are read of it. A key that is
not there is added with its default. -/
theorem WellFormed.read (h : WellFormed content) :
    ∃ l, ofContent (.map content) = .ok l ∧
      (Value.lookup? "users" content).getD (.map []) = levelMap l.users ∧
      ∀ d ∈ defaults,
        l.content.field? d.1 = .ok (some ((Value.lookup? d.1 content).getD d.2)) := by
  obtain ⟨users, husers, husers'⟩ := h.map "users" (by decide) DefaultLevel.users
  obtain ⟨events, hevents, hevents'⟩ := h.map "events" (by decide) DefaultLevel.events
  obtain ⟨usersDefault, hud, hud'⟩ := h.number "users_default" (by decide) (by decide)
    DefaultLevel.users
  obtain ⟨eventsDefault, hed, hed'⟩ := h.number "events_default" (by decide) (by decide)
    DefaultLevel.events
  obtain ⟨stateDefault, hsd, hsd'⟩ := h.number "state_default" (by decide) (by decide)
    DefaultLevel.state
  obtain ⟨ban, hban, hban'⟩ := h.number "ban" (by decide) (by decide) DefaultLevel.ban
  obtain ⟨kick, hkick, hkick'⟩ := h.number "kick" (by decide) (by decide) DefaultLevel.kick
  obtain ⟨redact, hredact, hredact'⟩ := h.number "redact" (by decide) (by decide)
    DefaultLevel.redact
  obtain ⟨invite, hinvite, hinvite'⟩ := h.number "invite" (by decide) (by decide)
    DefaultLevel.invite
  refine ⟨⟨users, usersDefault, events, eventsDefault, stateDefault, ban, kick, redact, invite⟩,
    ?_, husers', fun d hd => ?_⟩
  · simp only [ofContent, husers, hevents, hud, hed, hsd, hban, hkick, hredact, hinvite]
    rfl
  · simp only [defaults, List.mem_cons, List.not_mem_nil, or_false] at hd
    rcases hd with rfl | rfl | rfl | rfl | rfl | rfl | rfl | rfl
    · rw [hud']; rfl
    · rw [hevents']; rfl
    · rw [hed']; rfl
    · rw [hsd']; rfl
    · rw [hban']; rfl
    · rw [hkick']; rfl
    · rw [hredact']; rfl
    · rw [hinvite']; rfl

/-- Levels that differ in one user give content that differs in the users only. -/
theorem DiffersAt.field? (h : DiffersAt user l l') {d : String × Value} (hd : d ∈ defaults) :
    l'.content.field? d.1 = l.content.field? d.1 := by
  rw [h.rest]
  simp only [defaults, List.mem_cons, List.not_mem_nil, or_false] at hd
  rcases hd with rfl | rfl | rfl | rfl | rfl | rfl | rfl | rfl <;> rfl

/-- Content has no other keys than those of the levels. -/
theorem field?_content (l : PowerLevels) {key : String} (hkey : key ∉ keys) :
    l.content.field? key = .ok none :=
  Value.field?_record_of_notMem hkey

/-- Of well-formed content that was read, all but one user's level is given again. -/
theorem WellFormed.givesAgain (h : WellFormed content) (hl : ofContent (.map content) = .ok l)
    (hdiffers : DiffersAt user l l') : GivesAgain user content l'.content := by
  obtain ⟨read, hread, husers, hfields⟩ := h.read
  obtain rfl : read = l := Except.ok.inj (hread.symm.trans hl)
  exact ⟨fun d hd => (hdiffers.field? hd).trans (hfields d hd),
    ⟨read.users, l'.users, husers, rfl, hdiffers.entries⟩, fun key hkey => field?_content l' hkey⟩

end Content

end PowerLevels

/-! ## Copies of what is kept -/

/-- The copies that a store takes and gives are what was copied. -/
@[simp] theorem PowerRecord.copy_eq (record : PowerRecord) : record.copy = .ok record := by
  cases record with
  | levels l =>
    rw [copy, PowerLevels.finish_draft]
    rfl
  | raw content => rfl

/-- What a store gives of the levels of a room is what it keeps of them. -/
theorem Store.powerRecord?_eq (room : Value) (s : Store) :
    s.powerRecord? room = room.toKey.map fun key => Table.get? key s.powerLevels := by
  have hcopies (known : Option PowerRecord) : known.mapM PowerRecord.copy = .ok known := by
    cases known with
    | none => rfl
    | some record =>
      rw [Option.mapM_some, PowerRecord.copy_eq]
      rfl
  rw [powerRecord?]
  cases room.toKey with
  | error e => rfl
  | ok key => exact hcopies _

end VirtualUsers
