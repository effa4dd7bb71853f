import VirtualUsers.Call
import VirtualUsers.Proofs.Reordering
/-!
# The cells of a store

A store consists of cells: whether a user is registered, the record of a user in a room, the power
levels of a room, and until when a user is typing in a room. A change of the store edits the cell
that it addresses, or none. Main statement: all other cells stay as they are, and changes that
address different cells can change places without any question to the store telling the difference.
-/

namespace VirtualUsers

/-! ## Tables in another order -/

namespace Table

variable {κ ι α : Type} [DecidableEq κ]

theorem put_put (k : κ) (a c : α) (t : Table κ α) : put k c (put k a t) = put k c t := by
  induction t with
  | nil => simp [put]
  | cons e t ih => by_cases h : e.1 = k <;> simp [put, h, ih]

/-- Entries under different keys can be made in either order. -/
theorem put_comm {k l : κ} (h : k ≠ l) (a c : α) (t : Table κ α) :
    (put l c (put k a t)).Perm (put k a (put l c t)) := by
  induction t with
  | nil =>
    simp only [put, if_neg h, if_neg h.symm]
    exact .swap ..
  | cons e t ih =>
    obtain ⟨m, d⟩ := e
    by_cases hk : m = k
    · subst hk
      simp [put, h]
    · by_cases hl : m = l
      · subst hl
        simp [put, h.symm]
      · simp only [put, if_neg hk, if_neg hl]
        exact ih.cons _

/-- The tables have as many keys, and under them the same entries in some order. -/
structure Shuffled (t t' : Table κ (Table ι α)) : Prop where
  length : t.length = t'.length
  entries : (t.flatMap (·.2)).Perm (t'.flatMap (·.2))

omit [DecidableEq κ] in
theorem Shuffled.of_perm {t t' : Table κ (Table ι α)} (h : t.Perm t') : Shuffled t t' :=
  ⟨h.length_eq, h.flatMap_right _⟩

/-- Two tables that have the same entries leave the same behind when they are entered. -/
theorem shuffled_put {k : κ} {u u' : Table ι α} (h : u.Perm u') (t : Table κ (Table ι α)) :
    Shuffled (put k u t) (put k u' t) := by
  induction t with
  | nil => exact ⟨rfl, h.append_right _⟩
  | cons e t ih =>
    by_cases hk : e.1 = k
    · simp only [put, if_pos hk]
      exact ⟨rfl, h.append_right _⟩
    · simp only [put, if_neg hk]
      exact ⟨congrArg (· + 1) ih.length, ih.entries.append_left _⟩

end Table

namespace Store

/-- Users of one room, or of two, can be entered in either order. -/
theorem shuffled_enter {room user room' user' : Key} (h : (room, user) ≠ (room', user'))
    (a c : α) (rooms : Table Key (Table Key α)) :
    Table.Shuffled (enter room' user' c (enter room user a rooms))
      (enter room user a (enter room' user' c rooms)) := by
  by_cases hroom : room = room'
  · subst hroom
    -- Both users stand in the table of one room, which takes the place that it has among the rooms.
    have huser : user ≠ user' := fun huser => h (by rw [huser])
    simp only [enter, Table.get?_put_self, Option.getD_some, Table.put_put]
    exact Table.shuffled_put (Table.put_comm huser a c _) rooms
  · rw [enter, enter, enter, enter, Table.get?_put_of_ne (Ne.symm hroom),
      Table.get?_put_of_ne hroom]
    exact .of_perm (Table.put_comm hroom _ _ rooms)

/-! ## Cells and edits -/

/-- A place in a store that can be changed by itself. -/
inductive Cell where
  | user (id : Key)
  | member (room user : Key)
  | levels (room : Key)
  | typing (room user : Key)
deriving DecidableEq

inductive Holding where
  | registered (known : Bool)
  | member (record : Option Member)
  | levels (record : Option PowerRecord)
  | typing (expiry : Option Int)

def holding (s : Store) : Cell → Holding
  | .user id => .registered (s.registered.contains id)
  | .member room user => .member (cell? room user s.members)
  | .levels room => .levels (Table.get? room s.powerLevels)
  | .typing room user => .typing (cell? room user s.typing)

/-- A change of one cell. The new record of a member may depend on the one before. -/
inductive Edit where
  | register (id : Key)
  | member (room user : Key) (record : Option Member → Member)
  | levels (room : Key) (record : PowerRecord)
  | typing (room user : Key) (expiry : Int)

namespace Edit

def cell : Edit → Cell
  | register id => .user id
  | member room user _ => .member room user
  | levels room _ => .levels room
  | typing room user _ => .typing room user

def on (s : Store) : Edit → Store
  | register id => s.register id
  | member room user record =>
    { s with members := enter room user (record (cell? room user s.members)) s.members }
  | levels room record => { s with powerLevels := Table.put room record s.powerLevels }
  | typing room user expiry => { s with typing := enter room user expiry s.typing }

def held : Edit → Holding → Holding
  | register _, _ => .registered true
  | member _ _ record, .member old => .member (some (record old))
  | levels _ record, _ => .levels (some record)
  | typing _ _ expiry, _ => .typing (some expiry)
  | _, h => h

end Edit

def Write.edit : Write → Edit
  | .member room user record => .member room user fun _ => record
  | .levels room record => .levels room record

theorem Write.on_edit (w : Write) (s : Store) : w.edit.on s = w.on s := by
  cases w <;> rfl

def edited (s : Store) : Option Edit → Store
  | some e => e.on s
  | none => s

theorem contains_register (id id' : Key) (s : Store) :
    (s.register id).registered.contains id' = (id' == id || s.registered.contains id') := by
  rw [register]
  split
  · next h =>
    by_cases hid : id' = id
    · rw [hid, h, beq_self_eq_true, Bool.true_or]
    · rw [beq_eq_false_iff_ne.mpr hid, Bool.false_or]
  · rw [List.contains_append, List.contains_cons, List.contains_nil, Bool.or_false, Bool.or_comm]

theorem holding_on_self (e : Edit) (s : Store) :
    (e.on s).holding e.cell = e.held (s.holding e.cell) := by
  cases e with
  | register id => simp only [Edit.on, Edit.cell, holding, Edit.held, contains_register,
      beq_self_eq_true, Bool.true_or]
  | member room user record => simp only [Edit.on, Edit.cell, holding, Edit.held, cell?_enter_self]
  | levels room record => simp only [Edit.on, Edit.cell, holding, Edit.held, Table.get?_put_self]
  | typing room user expiry => simp only [Edit.on, Edit.cell, holding, Edit.held, cell?_enter_self]

/-- An edit leaves all other cells as they are. -/
theorem holding_on_of_ne {e : Edit} {c : Cell} (h : c ≠ e.cell) (s : Store) :
    (e.on s).holding c = s.holding c := by
  cases e with
  | register id =>
    cases c with
    | user id' =>
      have hid : id' ≠ id := fun hid => h (by rw [hid, Edit.cell])
      simp only [Edit.on, holding, contains_register, beq_eq_false_iff_ne.mpr hid, Bool.false_or]
    | _ =>
      simp only [Edit.on, holding, register]
      split <;> rfl
  | member room user record =>
    cases c with
    | member room' user' =>
      have hcell : ¬ (room' = room ∧ user' = user) := fun hcell => h (by
        rw [hcell.1, hcell.2, Edit.cell])
      simp only [Edit.on, holding, cell?_enter, if_neg hcell]
    | _ => rfl
  | levels room record =>
    cases c with
    | levels room' =>
      have hroom : room' ≠ room := fun hroom => h (by rw [hroom, Edit.cell])
      simp only [Edit.on, holding, Table.get?_put_of_ne hroom]
    | _ => rfl
  | typing room user expiry =>
    cases c with
    | typing room' user' =>
      have hcell : ¬ (room' = room ∧ user' = user) := fun hcell => h (by
        rw [hcell.1, hcell.2, Edit.cell])
      simp only [Edit.on, holding, cell?_enter, if_neg hcell]
    | _ => rfl

/-! ## Edits that change places -/

/-- The stores hold the same in all cells and count the same. -/
structure Alike (s s' : Store) : Prop where
  holding : ∀ c, s.holding c = s'.holding c
  counts : s.counts = s'.counts

theorem Alike.refl (s : Store) : Alike s s := ⟨fun _ => rfl, rfl⟩

theorem holding_comm {e e' : Edit} (h : e.cell ≠ e'.cell) (s : Store) (c : Cell) :
    (e'.on (e.on s)).holding c = (e.on (e'.on s)).holding c := by
  by_cases hc : c = e.cell
  · subst hc
    calc (e'.on (e.on s)).holding e.cell
      _ = (e.on s).holding e.cell := holding_on_of_ne h _
      _ = e.held (s.holding e.cell) := holding_on_self e s
      _ = e.held ((e'.on s).holding e.cell) := by rw [holding_on_of_ne h]
      _ = (e.on (e'.on s)).holding e.cell := (holding_on_self e _).symm
  · by_cases hc' : c = e'.cell
    · subst hc'
      calc (e'.on (e.on s)).holding e'.cell
        _ = e'.held ((e.on s).holding e'.cell) := holding_on_self e' _
        _ = e'.held (s.holding e'.cell) := by rw [holding_on_of_ne hc]
        _ = (e'.on s).holding e'.cell := (holding_on_self e' s).symm
        _ = (e.on (e'.on s)).holding e'.cell := (holding_on_of_ne hc _).symm
    · rw [holding_on_of_ne hc', holding_on_of_ne hc, holding_on_of_ne hc, holding_on_of_ne hc']

/-- How much there is depends on how many users, rooms with members, members and rooms with levels
there are, in whatever order. -/
theorem counts_congr {s s' : Store} (hregistered : s.registered.length = s'.registered.length)
    (hmembers : Table.Shuffled s.members s'.members)
    (hlevels : s.powerLevels.length = s'.powerLevels.length) : s.counts = s'.counts := by
  simp only [counts, hregistered, hmembers.length, hmembers.entries.length_eq, hlevels,
    hmembers.entries.countP_eq]

theorem register_length (id : Key) (s : Store) : (s.register id).registered.length =
    s.registered.length + if s.registered.contains id then 0 else 1 := by
  rw [register]
  split <;> simp_all

theorem register_comm_length {id id' : Key} (h : id ≠ id') (s : Store) :
    ((s.register id).register id').registered.length =
      ((s.register id').register id).registered.length := by
  rw [register_length, register_length, register_length, register_length, contains_register,
    contains_register, beq_eq_false_iff_ne.mpr h, beq_eq_false_iff_ne.mpr h.symm, Bool.false_or,
    Bool.false_or]
  omega

theorem register_members (id : Key) (s : Store) : (s.register id).members = s.members := by
  rw [register]
  split <;> rfl

theorem register_powerLevels (id : Key) (s : Store) :
    (s.register id).powerLevels = s.powerLevels := by
  rw [register]
  split <;> rfl

/-- Users are registered apart from all else. -/
theorem on_register {e : Edit} (h : ∀ id, e.cell ≠ .user id) (id : Key) (s : Store) :
    e.on (s.register id) = (e.on s).register id := by
  cases e with
  | register id' => exact absurd rfl (h id')
  | _ =>
    by_cases hid : s.registered.contains id <;>
      simp only [Edit.on, register, hid, if_true, if_false, Bool.false_eq_true]

theorem counts_comm {e e' : Edit} (h : e.cell ≠ e'.cell) (s : Store) :
    (e'.on (e.on s)).counts = (e.on (e'.on s)).counts := by
  cases e with
  | register id =>
    cases e' with
    | register id' =>
      have hid : id ≠ id' := fun hid => h (by rw [hid])
      refine counts_congr (register_comm_length hid s) (.of_perm (.of_eq ?_)) ?_
      · simp only [Edit.on, register_members]
      · simp only [Edit.on, register_powerLevels]
    | _ => exact congrArg counts (on_register (fun _ => by simp [Edit.cell]) id s)
  | member room user record =>
    cases e' with
    | register id' => exact congrArg counts (on_register (fun _ => by simp [Edit.cell]) id' s).symm
    | member room' user' record' =>
      have hcell : ¬ (room' = room ∧ user' = user) := fun hcell => h (by
        rw [hcell.1, hcell.2, Edit.cell, Edit.cell])
      have hcell' : ¬ (room = room' ∧ user = user') := fun hcell' => hcell
        ⟨hcell'.1.symm, hcell'.2.symm⟩
      simp only [Edit.on, cell?_enter, if_neg hcell, if_neg hcell']
      exact counts_congr rfl (shuffled_enter (by simpa using hcell') _ _ s.members) rfl
    | _ => rfl
  | levels room record =>
    cases e' with
    | register id' => exact congrArg counts (on_register (fun _ => by simp [Edit.cell]) id' s).symm
    | levels room' record' =>
      have hroom : room ≠ room' := fun hroom => h (by rw [hroom, Edit.cell, Edit.cell])
      exact counts_congr rfl (.of_perm (.refl _))
        (Table.put_comm hroom record record' s.powerLevels).length_eq
    | _ => rfl
  | typing room user expiry =>
    cases e' with
    | register id' => exact congrArg counts (on_register (fun _ => by simp [Edit.cell]) id' s).symm
    | _ => rfl

theorem on_comm {e e' : Edit} (h : e.cell ≠ e'.cell) (s : Store) :
    Alike (e'.on (e.on s)) (e.on (e'.on s)) :=
  ⟨holding_comm h s, counts_comm h s⟩

/-! ## What is found in stores that are alike -/

namespace Alike

variable {s s' : Store}

theorem isRegistered (h : Alike s s') (user : Value) :
    s.isRegistered user = s'.isRegistered user := by
  have hall : s.registered.contains = s'.registered.contains := by
    funext id
    exact Holding.registered.inj (h.holding (.user id))
  rw [Store.isRegistered, Store.isRegistered, hall]

theorem member? (h : Alike s s') (room user : Value) :
    s.member? room user = s'.member? room user := by
  have hall : ∀ r u, cell? r u s.members = cell? r u s'.members := fun r u =>
    Holding.member.inj (h.holding (.member r u))
  simp only [Store.member?, hall]

theorem member (h : Alike s s') (room user : Value) : s.member room user = s'.member room user := by
  rw [Store.member, Store.member, h.member?]

theorem membership (h : Alike s s') (room user : Value) :
    s.membership room user = s'.membership room user := by
  rw [Store.membership, Store.membership, h.member]

theorem hasMembership (h : Alike s s') (room user : Value) (allowed : List Value) :
    s.hasMembership room user allowed = s'.hasMembership room user allowed := by
  rw [Store.hasMembership, Store.hasMembership, h.membership]

theorem powerRecord? (h : Alike s s') (room : Value) :
    s.powerRecord? room = s'.powerRecord? room := by
  have hall : ∀ r, Table.get? r s.powerLevels = Table.get? r s'.powerLevels := fun r =>
    Holding.levels.inj (h.holding (.levels r))
  simp only [Store.powerRecord?, hall]

theorem isTyping (h : Alike s s') (now : Int) (room user : Value) :
    s.isTyping now room user = s'.isTyping now room user := by
  have hall : ∀ r u, cell? r u s.typing = cell? r u s'.typing := fun r u =>
    Holding.typing.inj (h.holding (.typing r u))
  simp only [Store.isTyping, hall]

end Alike

/-- A user is in a room if there is a record that says so. -/
theorem isJoined_eq (room user : String) (s : Store) : s.isJoined (.text room) (.text user) =
    .ok ((cell? (.text room) (.text user) s.members).any Member.isJoined) := by
  change Except.ok ([Value.text Membership.join].any _) = _
  rw [List.any_cons, List.any_nil, Bool.or_false]
  cases cell? (.text room) (.text user) s.members with
  | none => simp [Value.same, Value.sameScalar, Membership.join, Membership.none]
  | some m => rfl

/-! ## What is set -/

section Setting

variable (room user : String) (s : Store)

theorem state_setMembership (membership : Value) :
    ((setMembership (.text room) (.text user) membership).outcome s).2 =
      (Edit.member (.text room) (.text user) fun old =>
        { old.getD {} with membership }).on s := rfl

theorem state_setMember (record : Member) :
    ((setMember (.text room) (.text user) record).outcome s).2 =
      (Edit.member (.text room) (.text user) fun _ => record).on s := rfl

theorem state_setPowerLevels (levels : Value) :
    ((setPowerLevels (.text room) levels).outcome s).2 =
      s.edited ((PowerRecord.ofValue levels).toOption.map (.levels (.text room))) := by
  rw [setPowerLevels, Attempt.outcome_bind, Attempt.outcome_ofResult]
  cases PowerRecord.ofValue levels <;> rfl

theorem state_setTyping (now : Int) (timeout : Value) :
    ((setTyping now (.text room) (.text user) timeout).outcome s).2 =
      s.edited ((typingExpiry now timeout).toOption.map (.typing (.text room) (.text user))) := by
  rw [setTyping, Attempt.outcome_bind, Attempt.outcome_ofResult]
  cases typingExpiry now timeout <;> rfl

end Setting

theorem state_observed {e : Event} (h : e.HasIds) (s : Store) :
    ((observe e).outcome s).2 = s.edited (e.write?.map Write.edit) := by
  rw [state_observe h]
  cases e.write? with
  | none => rfl
  | some w => exact (w.on_edit s).symm

end Store

/-- The cell that a state event is about. An event whose membership is not recognised is about
none. -/
def Event.cell? (e : Event) : Option Store.Cell :=
  match e.room, e.stateKey with
  | .text room, .text key =>
    if e.isMember then e.content.membership?.map fun _ => .member (.text room) (.text key)
    else if e.isLevels then some (.levels (.text room))
    else none
  | _, _ => none

theorem Event.cell?_of_write? {e : Event} {w : Store.Write} (h : e.write? = some w) :
    e.cell? = some w.edit.cell := by
  unfold write? at h
  split at h
  · next room key hroom hkey =>
    rw [cell?, hroom, hkey]
    dsimp only
    split at h
    · next hmember =>
      obtain ⟨record, hrecord, rfl⟩ := Option.map_eq_some_iff.mp h
      rw [record?] at hrecord
      split at hrecord
      · next m _ hm _ =>
        rw [if_pos hmember, hm]
        rfl
      · cases hrecord
    · next hmember =>
      split at h
      · next hlevels =>
        obtain ⟨levels, -, rfl⟩ := Option.map_eq_some_iff.mp h
        rw [if_neg hmember, if_pos hlevels]
        rfl
      · cases h
  · cases h

namespace Bridge

open Attempt (ofResult)
open Store (Alike Cell Edit)

theorem store_observe {e : Event} (h : e.HasIds) (b : Bridge) :
    ((observe e).outcome b).2.store = b.store.edited (e.write?.map Store.Write.edit) := by
  rcases hout : (Store.observe e).outcome b.store with ⟨r, s⟩
  obtain ⟨c, hc, rfl⟩ := outcome_observe hout
  rw [hc, ← Store.state_observed h, hout]

/-- A change of the store whose ids are texts. -/
inductive Change where
  | register (user : String)
  | setMembership (room user : String) (membership : Value)
  | setMember (room user : String) (record : Value)
  | setPowerLevels (room : String) (levels : Value)
  | setTyping (room user : String) (timeout : Value)
  | observe (e : Event) (hids : e.HasIds)

namespace Change

def operation : Change → StoreOperation
  | register user => .markRegistered (.text user)
  | setMembership room user membership => .setMembership (.text room) (.text user) membership
  | setMember room user record => .setMember (.text room) (.text user) record
  | setPowerLevels room levels => .setPowerLevels (.text room) levels
  | setTyping room user timeout => .setTyping (.text room) (.text user) timeout
  | observe e _ => .observe e.toValue

def cell? : Change → Option Cell
  | register user => some (.user (.text user))
  | setMembership room user _ | setMember room user _ => some (.member (.text room) (.text user))
  | setPowerLevels room _ => some (.levels (.text room))
  | setTyping room user _ => some (.typing (.text room) (.text user))
  | observe e _ => e.cell?

/-- The two address no cell in common. -/
def Apart (m m' : Change) : Prop :=
  ∀ c, m.cell? = some c → m'.cell? ≠ some c

/-- What comes of the change at the given time. What is not of the right form changes nothing. -/
def edit? (now : Int) : Change → Option Edit
  | register user => some (.register (.text user))
  | setMembership room user membership =>
    some (.member (.text room) (.text user) fun old => { old.getD {} with membership })
  | setMember room user record =>
    (memberOf record).toOption.map fun m => .member (.text room) (.text user) fun _ => m
  | setPowerLevels room levels =>
    (PowerRecord.ofValue levels).toOption.map (.levels (.text room))
  | setTyping room user timeout =>
    (Store.typingExpiry now timeout).toOption.map (.typing (.text room) (.text user))
  | observe e _ => e.write?.map Store.Write.edit

def after (m : Change) (b : Bridge) : Bridge :=
  ((performOnStore m.operation).outcome b).2

variable {m : Change} {e : Edit}

/-- A change edits no other cell than the one that it addresses. -/
theorem cell?_of_edit? {now : Int} (h : m.edit? now = some e) : m.cell? = some e.cell := by
  cases m with
  | register user | setMembership room user membership =>
    cases h
    rfl
  | setMember | setPowerLevels | setTyping =>
    obtain ⟨_, -, rfl⟩ := Option.map_eq_some_iff.mp h
    rfl
  | observe e hids =>
    obtain ⟨w, hw, rfl⟩ := Option.map_eq_some_iff.mp h
    exact Event.cell?_of_write? hw

theorem eventOf_toValue (e : Event) : eventOf e.toValue = .ok e := rfl

/-- All that a change leaves in the store is its edit. -/
theorem store_after (m : Change) (b : Bridge) :
    (m.after b).store = b.store.edited (m.edit? b.now) := by
  cases m with
  | register user =>
    rw [after, operation, performOnStore, Attempt.state_return]
    exact (untouched_markRegistered user b).store
  | setMembership room user membership =>
    rw [after, operation, performOnStore, Attempt.state_return, outcome_onStore]
    exact Store.state_setMembership room user b.store membership
  | setMember room user record =>
    simp only [after, operation, performOnStore, Attempt.outcome_bind, Attempt.outcome_ofResult,
      edit?]
    cases memberOf record with
    | error f => rfl
    | ok member => exact Store.state_setMember room user b.store member
  | setPowerLevels room levels =>
    rw [after, operation, performOnStore, Attempt.state_return, outcome_onStore]
    exact Store.state_setPowerLevels room b.store levels
  | setTyping room user timeout =>
    rw [after, operation, performOnStore, Attempt.outcome_bind, Attempt.outcome_get,
      Attempt.follow_ok, Attempt.state_return, outcome_onStore]
    exact Store.state_setTyping room user b.store b.now timeout
  | observe e hids =>
    rw [after, operation, performOnStore, eventOf_toValue, Attempt.outcome_bind,
      Attempt.outcome_ofResult, Attempt.follow_ok, Attempt.state_return]
    exact store_observe hids b

theorem now_after (m : Change) (b : Bridge) : (m.after b).now = b.now := by
  cases m with
  | register user =>
    rw [after, operation, performOnStore, Attempt.state_return]
    exact (untouched_markRegistered user b).now
  | observe e hids =>
    rw [after, operation, performOnStore, eventOf_toValue, Attempt.outcome_bind,
      Attempt.outcome_ofResult, Attempt.follow_ok, Attempt.state_return]
    exact (keeps_observe frame_silent e b).now
  | setMember room user record =>
    simp only [after, operation, performOnStore, Attempt.outcome_bind, Attempt.outcome_ofResult]
    cases memberOf record <;> rfl
  | setTyping room user timeout =>
    rw [after, operation, performOnStore, Attempt.outcome_bind, Attempt.outcome_get,
      Attempt.follow_ok, Attempt.state_return, outcome_onStore]
  | _ =>
    rw [after, operation, performOnStore, Attempt.state_return, outcome_onStore]

/-- A change leaves all cells as they are but the one that it addresses. -/
theorem holding_after {m : Change} {c : Cell} (h : m.cell? ≠ some c) (b : Bridge) :
    (m.after b).store.holding c = b.store.holding c := by
  rw [store_after]
  cases he : m.edit? b.now with
  | none => rfl
  | some e =>
    refine Store.holding_on_of_ne (fun hc => h ?_) b.store
    rw [cell?_of_edit? he, hc]

/-- Changes that address different cells can change places. -/
theorem alike_after {m m' : Change} (h : m.Apart m') (b : Bridge) :
    Alike (m'.after (m.after b)).store (m.after (m'.after b)).store := by
  simp only [store_after, now_after]
  cases he : m.edit? b.now with
  | none => exact .refl _
  | some e =>
    cases he' : m'.edit? b.now with
    | none => exact .refl _
    | some e' =>
      refine Store.on_comm (fun hcell => h e.cell (cell?_of_edit? he) ?_) b.store
      rw [cell?_of_edit? he', hcell]

end Change

def IsQuery : StoreOperation → Prop
  | .isRegistered _ | .membership .. | .hasMembership .. | .isJoined .. | .isInvited ..
  | .findMember .. | .member .. | .powerLevels _ | .isTyping .. | .counts => True
  | _ => False

def answer (q : StoreOperation) (b : Bridge) : Except Failure Value :=
  ((performOnStore q).outcome b).1

/-- Questions have the same answers in stores that are alike. -/
theorem answer_congr {q : StoreOperation} (hq : IsQuery q) {b b' : Bridge} (hnow : b.now = b'.now)
    (h : Alike b.store b'.store) : b.answer q = b'.answer q := by
  unfold answer
  cases q with
  | isRegistered user =>
    simp only [performOnStore, Attempt.outcome_map, outcome_ask, h.isRegistered]
  | membership room user =>
    simp only [performOnStore, outcome_ask, h.membership]
  | hasMembership room user allowed =>
    simp only [performOnStore, Attempt.outcome_map, outcome_ask, h.hasMembership]
  | isJoined room user | isInvited room user =>
    simp only [performOnStore, Attempt.outcome_map, outcome_ask, Store.isJoined, Store.isInvited,
      h.hasMembership]
  | findMember room user =>
    simp only [performOnStore, Attempt.outcome_bind, outcome_ask, h.member?]
    cases b'.store.member? room user with
    | error f => rfl
    | ok found => cases found <;> rfl
  | member room user =>
    simp only [performOnStore, Attempt.outcome_map, outcome_ask, h.member]
  | powerLevels room =>
    simp only [performOnStore, Attempt.outcome_bind, outcome_ask, h.powerRecord?]
    cases b'.store.powerRecord? room <;> rfl
  | isTyping room user =>
    simp only [performOnStore, Attempt.outcome_bind, Attempt.outcome_get, Attempt.follow_ok,
      outcome_ask, hnow, h.isTyping]
    cases b'.store.isTyping b'.now room user <;> rfl
  | counts =>
    simp only [performOnStore, Attempt.outcome_bind, Attempt.outcome_get, Attempt.follow_ok,
      Attempt.outcome_pure, h.counts]
  | _ => exact hq.elim

/-- The cells of a store are independent: a change leaves all cells as they are but the one that it
addresses, and after two changes that address different cells every question has the same answer,
whichever of them was made first. -/
theorem cells_independent (b : Bridge) (m : Change) :
    (∀ c, m.cell? ≠ some c → (m.after b).store.holding c = b.store.holding c) ∧
      ∀ m', m.Apart m' → ∀ q, IsQuery q →
        (m'.after (m.after b)).answer q = (m.after (m'.after b)).answer q := by
  refine ⟨fun c hc => Change.holding_after hc b, fun m' happart q hq => ?_⟩
  exact answer_congr hq (by simp only [Change.now_after]) (Change.alike_after happart b)

def Example.withCarol : Bridge where
  store :=
    { members := [(.text "!r:hs", [(.text "@carol:hs", { membership := .text "join" })])] }

theorem cells_of_room_independent :
    let join := Change.setMembership "!r:hs" "@bob:hs" (.text "join")
    let invitation := Change.observe (Example.readAs EventType.member "@carol:hs"
      [("membership", .text "invite")]) ⟨⟨_, rfl⟩, .inr ⟨_, rfl⟩⟩
    let carol := Cell.member (.text "!r:hs") (.text "@carol:hs")
    let b := Example.withCarol
    (join.cell? ≠ some carol ∧
      (join.after b).store.holding carol = .member (some { membership := .text "join" })) ∧
    join.Apart invitation ∧ IsQuery .counts ∧
      (join.after (invitation.after b)).answer .counts = .ok (countsValue ⟨0, 1, 2, 1, 0⟩) ∧
      (invitation.after (join.after b)).answer .counts = .ok (countsValue ⟨0, 1, 2, 1, 0⟩) := by
  intro join invitation carol b
  have hcarol : join.cell? ≠ some carol := by decide
  have happart : join.Apart invitation := by
    intro c hc hc'
    cases hc
    exact absurd hc' (by decide)
  have hcounts : (join.after (invitation.after b)).answer .counts =
      .ok (countsValue ⟨0, 1, 2, 1, 0⟩) := by
    have hafter : (join.after (invitation.after b)).store.counts = ⟨0, 1, 2, 1, 0⟩ := by
      rw [Change.store_after, Change.store_after, Change.now_after]
      decide +kernel
    exact congrArg (fun c => Except.ok (countsValue c)) hafter
  obtain ⟨hothers, hcomm⟩ := cells_independent b join
  exact ⟨⟨hcarol, hothers carol hcarol⟩, happart, trivial, hcounts,
    (hcomm invitation happart .counts trivial).trans hcounts⟩

end Bridge

end VirtualUsers
