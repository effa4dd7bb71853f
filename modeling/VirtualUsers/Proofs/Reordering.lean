import Mathlib.Data.List.Pairwise
import Mathlib.Data.List.Perm.Basic
import Mathlib.Logic.Function.Basic
import VirtualUsers.Proofs.Contract
import VirtualUsers.Proofs.Effects
import VirtualUsers.Proofs.ReadBack
/-!
# The order of events

An event that was read writes one cell of the store, a member record or the power levels of a room,
or it writes nothing. Writes of different cells can change places, and what can be looked up
afterwards is the same. So the state of a room may be listed in any order as long as no two of its
events write the same cell. Events with different types or state keys write different cells unless
both are about power levels, which are kept by room whatever the state key.
-/

namespace VirtualUsers

/-! ## What an event writes -/

namespace Store

/-- What is written to a store: the record of a user in a room, or the power levels of a room. -/
inductive Write where
  | member (room user : Key) (record : Member)
  | levels (room : Key) (record : PowerRecord)

namespace Write

def cell : Write → Key × Option Key
  | member room user _ => (room, some user)
  | levels room _ => (room, none)

def on : Write → Store → Store
  | member room user record, s => { s with members := enter room user record s.members }
  | levels room record, s => { s with powerLevels := Table.put room record s.powerLevels }

end Write

end Store

namespace Event

def isLevels (e : Event) : Bool :=
  match e.type with
  | .text t => t == EventType.powerLevels
  | _ => false

/-- The ids of the event are texts. The state key may be missing. -/
structure HasIds (e : Event) : Prop where
  room : ∃ r, e.room = .text r
  stateKey : e.stateKey = .null ∨ ∃ k, e.stateKey = .text k

theorem Absorbable.hasIds {e : Event} (h : e.Absorbable) : e.HasIds :=
  ⟨h.room, h.stateKey⟩

def Apart (e e' : Event) : Prop :=
  (e.type, e.stateKey) ≠ (e'.type, e'.stateKey)

instance : Std.Symm Apart := ⟨fun _ _ h => h.symm⟩

def record? (e : Event) : Option Member :=
  match e.content.membership?, Member.ofContent e.content with
  | some _, .ok record => some record
  | _, _ => none

def levels? (e : Event) : Option PowerLevels :=
  (PowerLevels.ofContent e.content >>= fun levels => levels.draft.finish).toOption

def write? (e : Event) : Option Store.Write :=
  match e.room, e.stateKey with
  | .text room, .text key =>
    if e.isMember then e.record?.map (.member (.text room) (.text key))
    else if e.isLevels then e.levels?.map fun levels => .levels (.text room) (.levels levels)
    else none
  | _, _ => none

theorem isLevels_iff (e : Event) :
    e.isLevels = true ↔ e.type.same (.text EventType.powerLevels) := by
  rw [Value.same_text_iff, isLevels]
  cases e.type <;> simp [Value.text?]

theorem isLevels_type {e : Event} (h : e.isLevels) : e.type = .text EventType.powerLevels :=
  Value.text?_eq_some.mp ((Value.same_text_iff _ _).mp ((isLevels_iff e).mp h))

/-- A membership is written to the record of its user, and levels are written to their room. -/
theorem cell_of_write? {e : Event} {w : Store.Write} (h : e.write? = some w) :
    ∃ room key, e.room = .text room ∧ e.stateKey = .text key ∧
      ((e.isMember ∧ w.cell = (.text room, some (.text key))) ∨
        (e.isLevels ∧ w.cell = (.text room, none))) := by
  unfold write? at h
  split at h
  · next room key hroom hkey =>
    refine ⟨room, key, hroom, hkey, ?_⟩
    split at h
    · next hmember =>
      obtain ⟨record, -, rfl⟩ := Option.map_eq_some_iff.mp h
      exact .inl ⟨hmember, rfl⟩
    · split at h
      · next hlevels =>
        obtain ⟨levels, -, rfl⟩ := Option.map_eq_some_iff.mp h
        exact .inr ⟨hlevels, rfl⟩
      · cases h
  · cases h

end Event

namespace Store

section Observing

variable {e : Event} {room key : String}

theorem state_observeMember (hroom : e.room = .text room) (hkey : e.stateKey = .text key)
    (s : Store) :
    ((observeMember e).outcome s).2 =
      ((e.record?.map (Write.member (.text room) (.text key))).map (·.on s)).getD s := by
  rw [observeMember, Attempt.outcome_bind, Attempt.outcome_ofResult, Event.record?]
  cases hfield : e.content.field "membership" with
  | error f =>
    rw [Value.membership?, hfield]
    rfl
  | ok v =>
    have hrecord : ∃ record, Member.ofContent e.content = .ok record := by
      cases hcontent : e.content with
      | map entries => exact ⟨_, rfl⟩
      | _ => rw [hcontent] at hfield; cases hfield
    obtain ⟨record, hrecord⟩ := hrecord
    rw [Attempt.follow_ok, hrecord]
    rcases Member.recognised_cases hfield with ⟨m, -, hrecognised, hgiven⟩ | ⟨hrecognised, hgiven⟩
    · rw [if_pos hrecognised, hgiven, Attempt.outcome_bind, Attempt.outcome_ofResult,
        Attempt.follow_ok, hroom, hkey, Attempt.state_return,
        setMember_ok room (Key.ofValue?_text key)]
      rfl
    · rw [hrecognised, hgiven]
      rfl

theorem state_observeLevels (hroom : e.room = .text room) (s : Store) :
    ((observeLevels e).outcome s).2 =
      ((e.levels?.map fun levels => Write.levels (.text room) (.levels levels)).map (·.on s)).getD
        s := by
  rw [observeLevels, Attempt.outcome_bind, Attempt.outcome_ofResult, Event.levels?]
  cases PowerLevels.ofContent e.content with
  | error f => rfl
  | ok levels =>
    obtain ⟨finished, hfinished⟩ := levels.finish_draft_ok
    rw [Attempt.follow_ok, hroom, setPowerLevels_ok hfinished]
    change _ = ((levels.draft.finish.toOption.map _).map _).getD s
    rw [hfinished]
    rfl

/-- An event whose ids are texts leaves what it writes, and nothing else. -/
theorem state_observe (h : e.HasIds) (s : Store) :
    ((observe e).outcome s).2 = (e.write?.map (·.on s)).getD s := by
  obtain ⟨⟨room, hroom⟩, hkeys⟩ := h
  rw [observe, Event.write?, hroom]
  rcases hkeys with hkey | ⟨key, hkey⟩
  · rw [hkey]
    rfl
  · have hnull : ¬ (Value.text key).isNull := Bool.false_ne_true
    rw [hkey, if_neg hnull]
    by_cases hmember : e.isMember
    · rw [if_pos ((isMember_iff e).mp hmember)]
      simp only [hmember, if_true]
      exact state_observeMember hroom hkey s
    · rw [if_neg fun hsame => hmember ((isMember_iff e).mpr hsame)]
      by_cases hlevels : e.isLevels
      · rw [if_pos ((Event.isLevels_iff e).mp hlevels), Attempt.state_return]
        simp only [hmember, hlevels, if_true]
        exact state_observeLevels hroom s
      · rw [if_neg fun hsame => hlevels ((Event.isLevels_iff e).mpr hsame)]
        simp only [hmember, hlevels]
        rfl

end Observing

def written (writes : List Write) (s : Store) : Store :=
  writes.foldl (fun s w => w.on s) s

/-- Events that were read leave what they write. -/
theorem absorbed_written {events : List Event} (h : ∀ e ∈ events, e.Absorbable) (s : Store) :
    s.absorbed events = s.written (events.filterMap Event.write?) := by
  induction events generalizing s with
  | nil => rfl
  | cons e events ih =>
    have he := h e List.mem_cons_self
    obtain ⟨m, s', hs'⟩ := observe_ok he s
    have hstate := state_observe he.hasIds s
    rw [hs'] at hstate
    rw [absorbed, hs', List.filterMap_cons]
    dsimp only at hstate ⊢
    rw [ih fun e' he' => h e' (List.mem_cons_of_mem e he'), hstate]
    cases e.write? <;> rfl

end Store

/-! ## Writes that change places -/

def Table.look {κ ι α : Type} [DecidableEq κ] [DecidableEq ι] (t : Table κ (Table ι α)) :
    κ → Option (ι → Option α) :=
  fun k => (Table.get? k t).map fun inner l => Table.get? l inner

namespace Store

/-- What can be looked up in a store. -/
structure View where
  registered : Key → Prop
  members : Key → Option (Key → Option Member)
  levels : Key → Option PowerRecord
  typing : Key → Option (Key → Option Int)

def view (s : Store) : View where
  registered user := user ∈ s.registered
  members := s.members.look
  levels room := Table.get? room s.powerLevels
  typing := s.typing.look

def View.after (v : View) : Write → View
  | .member room user record =>
    let users := (v.members room).getD fun _ => none
    { v with members :=
        Function.update v.members room (some (Function.update users user (some record))) }
  | .levels room record => { v with levels := Function.update v.levels room (some record) }

theorem get?_put_eq_update {κ α : Type} [DecidableEq κ] (k : κ) (a : α) (t : Table κ α) :
    (fun l => Table.get? l (Table.put k a t)) =
      Function.update (fun l => Table.get? l t) k (some a) := by
  funext l
  rw [Table.get?_put, Function.update_apply]

theorem look_enter (room user : Key) (record : α) (rooms : Table Key (Table Key α)) :
    (enter room user record rooms).look =
      Function.update rooms.look room
        (some (Function.update ((rooms.look room).getD fun _ => none) user (some record))) := by
  have husers : (fun u => Table.get? u ((Table.get? room rooms).getD [])) =
      (rooms.look room).getD fun _ => none := by
    rw [Table.look]
    cases Table.get? room rooms <;> rfl
  funext r
  rw [Table.look, enter, Table.get?_put, Function.update_apply, ← husers, ← get?_put_eq_update]
  split <;> rfl

theorem view_on (w : Write) (s : Store) : (w.on s).view = s.view.after w := by
  cases w with
  | member room user record => simp only [view, Write.on, View.after, look_enter]
  | levels room record => simp only [view, Write.on, View.after, get?_put_eq_update]

theorem view_written (writes : List Write) (s : Store) :
    (s.written writes).view = writes.foldl View.after s.view := by
  induction writes generalizing s with
  | nil => rfl
  | cons w writes ih =>
    rw [List.foldl_cons, ← view_on, ← ih]
    rfl

/-- Writes of different cells can change places. -/
theorem after_comm {w w' : Write} (h : w.cell ≠ w'.cell) (v : View) :
    (v.after w).after w' = (v.after w').after w := by
  cases w with
  | member room user record =>
    cases w' with
    | member room' user' record' =>
      by_cases hroom : room = room'
      · subst hroom
        have huser : user ≠ user' := fun huser => h (by rw [Write.cell, Write.cell, huser])
        simp only [View.after, Function.update_self, Function.update_idem, Option.getD_some,
          Function.update_comm huser]
      · simp only [View.after, Function.update_of_ne hroom, Function.update_of_ne (Ne.symm hroom),
          Function.update_comm hroom]
    | levels room' record' => simp only [View.after]
  | levels room record =>
    cases w' with
    | member room' user' record' => simp only [View.after]
    | levels room' record' =>
      have hroom : room ≠ room' := fun hroom => h (by rw [Write.cell, Write.cell, hroom])
      simp only [View.after, Function.update_comm hroom]

/-- Writes of different cells leave the same behind in any order. -/
theorem view_perm {writes writes' : List Write} (hperm : writes.Perm writes')
    (hcells : ∀ w ∈ writes, ∀ w' ∈ writes, w = w' ∨ w.cell ≠ w'.cell) {s s' : Store}
    (hs : s.view = s'.view) : (s.written writes).view = (s'.written writes').view := by
  rw [view_written, view_written, ← hs]
  apply hperm.foldl_eq'
  intro w hw w' hw' v
  rcases hcells w hw w' hw' with rfl | hne
  · rfl
  · exact (after_comm hne v)

end Store

/-! ## The state of a room -/

namespace Table

variable {κ α : Type} [DecidableEq κ] {k : κ} {t : Table κ α}

theorem put_of_get?_none (h : get? k t = none) (a : α) : put k a t = t ++ [(k, a)] := by
  induction t with
  | nil => rfl
  | cons e t ih =>
    obtain ⟨l, b⟩ := e
    simp only [get?] at h
    split at h
    · cases h
    · next hne => rw [put, if_neg hne, ih h, List.cons_append]

theorem perm_put_of_get?_some {old : α} (h : get? k t = some old) (a : α) :
    ∃ rest, t.Perm ((k, old) :: rest) ∧ (put k a t).Perm ((k, a) :: rest) := by
  induction t with
  | nil => cases h
  | cons e t ih =>
    obtain ⟨l, b⟩ := e
    simp only [get?] at h
    split at h
    · next heq =>
      cases h
      refine ⟨t, ?_, ?_⟩
      · rw [heq]
      · rw [put, if_pos heq, heq]
    · next hne =>
      obtain ⟨rest, ht, hput⟩ := ih h
      refine ⟨(l, b) :: rest, ?_, ?_⟩
      · exact (ht.cons (l, b)).trans (.swap ..)
      · rw [put, if_neg hne]
        exact (hput.cons (l, b)).trans (.swap ..)

end Table

namespace Bridge

def filed? (type key : String) (state : RoomState) : Option Event :=
  (Table.get? type state).bind (Table.get? key)

def Placed (type key : String) (e : Event) : Prop :=
  e.type = .text type ∧ e.stateKey = .text key

variable {α : Type} {i : Intent} {b g : Bridge} {type key : String} {e : Event} {state : RoomState}

theorem fileEvent_placed (h : Placed type key e) : fileEvent state e =
    Table.put type (Table.put key e ((Table.get? type state).getD [])) state := by
  rw [fileEvent, h.1, h.2]

theorem filed?_fileEvent (h : Placed type key e) (type' key' : String) :
    filed? type' key' (fileEvent state e) =
      if type' = type ∧ key' = key then some e else filed? type' key' state := by
  rw [fileEvent_placed h, filed?, Table.get?_put]
  by_cases htype : type' = type
  · subst htype
    rw [if_pos rfl, Option.bind_some, Table.get?_put]
    by_cases hkey : key' = key
    · rw [if_pos hkey, if_pos ⟨rfl, hkey⟩]
    · rw [if_neg hkey, if_neg fun hboth => hkey hboth.2, filed?]
      cases Table.get? type' state <;> rfl
  · rw [if_neg htype, if_neg fun hboth => htype hboth.1, filed?]

/-- An event that is filed where there was none is one more event of the state. -/
theorem perm_fileEvent (h : Placed type key e) (hnew : filed? type key state = none) :
    (fileEvent state e).events.Perm (e :: state.events) := by
  rw [fileEvent_placed h]
  cases hget : Table.get? type state with
  | none =>
    rw [Table.put_of_get?_none hget, RoomState.events, List.flatMap_append]
    exact List.perm_append_singleton e _
  | some byKey =>
    rw [filed?, hget] at hnew
    rw [Option.getD_some, Table.put_of_get?_none hnew]
    obtain ⟨rest, hstate, hput⟩ := Table.perm_put_of_get?_some hget (byKey ++ [(key, e)])
    have hbefore : state.events.Perm (byKey.map (·.2) ++ RoomState.events rest) :=
      hstate.flatMap_right _
    have hafter := hput.flatMap_right fun entry : String × Table String Event => entry.2.map (·.2)
    rw [List.flatMap_cons, List.map_append, List.append_assoc] at hafter
    exact hafter.trans (List.perm_middle.trans (hbefore.symm.cons e))

/-- Events for different places are all in the state that they are filed in. -/
theorem perm_fileEvents {events : List Event} {state : RoomState}
    (hplaced : ∀ e ∈ events, ∃ type key, Placed type key e ∧ filed? type key state = none)
    (hdistinct : events.Pairwise Event.Apart) :
    (events.foldl fileEvent state).events.Perm (events ++ state.events) := by
  induction events generalizing state with
  | nil => exact .refl _
  | cons e events ih =>
    obtain ⟨hne, hrest⟩ := List.pairwise_cons.mp hdistinct
    obtain ⟨type, key, he, hnew⟩ := hplaced e List.mem_cons_self
    have hstill : ∀ e' ∈ events, ∃ type key, Placed type key e' ∧
        filed? type key (fileEvent state e) = none := by
      intro e' he'
      obtain ⟨type', key', hplace, hnew'⟩ := hplaced e' (List.mem_cons_of_mem e he')
      refine ⟨type', key', hplace, ?_⟩
      rw [filed?_fileEvent he, if_neg, hnew']
      rintro ⟨rfl, rfl⟩
      exact hne e' he' (by rw [he.1, he.2, hplace.1, hplace.2])
    have hfirst := (perm_fileEvent he hnew).append_left events
    exact (ih hstill hrest).trans (hfirst.trans List.perm_middle)

/-- The same values in another order are read as the same events in another order. -/
theorem readEvents_perm {room : Value} {raws raws' : List Value} {events : List Event}
    (hperm : raws.Perm raws') (h : readEvents room raws = .ok events) :
    ∃ events', readEvents room raws' = .ok events' ∧ events.Perm events' := by
  induction hperm generalizing events with
  | nil => exact ⟨events, h, .refl _⟩
  | cons raw _ ih =>
    obtain ⟨e, rest, he, hrest, rfl⟩ := readEvents_cons.mp h
    obtain ⟨rest', hrest', hperm'⟩ := ih hrest
    exact ⟨e :: rest', readEvents_cons.mpr ⟨e, rest', he, hrest', rfl⟩, hperm'.cons e⟩
  | swap raw raw' raws =>
    obtain ⟨e', rest', he', hrest', rfl⟩ := readEvents_cons.mp h
    obtain ⟨e, rest, he, hrest, rfl⟩ := readEvents_cons.mp hrest'
    have hswapped := readEvents_cons.mpr ⟨e', rest, he', hrest, rfl⟩
    exact ⟨e :: e' :: rest, readEvents_cons.mpr ⟨e, _, he, hswapped, rfl⟩, .swap e e' rest⟩
  | trans _ _ ih ih' =>
    obtain ⟨events₁, h₁, hperm₁⟩ := ih h
    obtain ⟨events₂, h₂, hperm₂⟩ := ih' h₁
    exact ⟨events₂, h₂, hperm₁.trans hperm₂⟩

theorem outcome_countAbsorbed (absorbed : Act Int) (a : α) (b : Bridge) :
    ∃ c, (absorbed >>= fun n => count .stateAbsorbed n >>= fun _ => (pure a : Act α)).outcome b =
      ((absorbed.outcome b).1.map fun _ => a, c) ∧ c.store = (absorbed.outcome b).2.store := by
  rw [Attempt.outcome_bind]
  rcases absorbed.outcome b with ⟨e | n, c⟩
  · exact ⟨c, rfl, rfl⟩
  · exact ⟨_, rfl, rfl⟩

/-- A state that is read is taken in event by event. -/
theorem outcome_roomState {room : String} {data : Value} {state : RoomState}
    (hgate : (ensureJoined i (.text room) false none).outcome b = (.ok (), g))
    (hdata : g.upcoming = some data) (hstate : stateOf (.text room) data = .ok state) :
    ∃ h c, (roomState i (.text room)).outcome b =
        (((absorbEvents state.events).outcome h).1.map fun _ => state, c) ∧
      c.store = g.store.absorbed state.events := by
  have hmakes : Makes g (stateOf (.text room)) (readRoomState i.client (.text room)) :=
    .check (segment_text room) ((makes_send g i.client _ _ _ _).reading (stateOf (.text room)))
  obtain ⟨h, hout, hstore⟩ := hmakes.reads hdata hstate
  obtain ⟨c, hcounted, hc⟩ := outcome_countAbsorbed (absorbEvents state.events) state h
  refine ⟨h, c, ?_, ?_⟩
  · rw [roomState, Attempt.outcome_bind, hgate, Attempt.follow_ok, Attempt.outcome_bind, hout]
    exact hcounted
  · rw [hc, store_absorbEvents, hstore]

/-- A list gives state events, of which no two have the same type and state key. -/
structure ListsState (room : String) (raws : List Value) (events : List Event) : Prop where
  json : ∀ raw ∈ raws, raw.IsJson
  read : readEvents (.text room) raws = .ok events
  state : ∀ e ∈ events, e.stateKey ≠ .null
  distinct : events.Pairwise Event.Apart

def OneLevelsKey (events : List Event) : Prop :=
  ∀ e ∈ events, ∀ e' ∈ events, e.isLevels → e'.isLevels → e.stateKey = e'.stateKey

namespace ListsState

variable {room : String} {raws raws' : List Value} {events : List Event}

theorem placed (h : ListsState room raws events) :
    ∀ e ∈ events, ∃ type key, Placed type key e := by
  intro e he
  obtain ⟨raw, -, hread⟩ := mem_readEvents h.read he
  obtain ⟨-, ⟨type, htype⟩, hkeys, -⟩ := Event.of_validate (Event.of_read hread).1
  obtain ⟨key, hkey⟩ := hkeys.resolve_left (h.state e he)
  exact ⟨type, key, htype, hkey⟩

theorem perm_state (h : ListsState room raws events) :
    (events.foldl fileEvent []).events.Perm events := by
  have hplaced : ∀ e ∈ events, ∃ type key, Placed type key e ∧ filed? type key [] = none := by
    intro e he
    obtain ⟨type, key, hplace⟩ := h.placed e he
    exact ⟨type, key, hplace, rfl⟩
  have hfiled := perm_fileEvents hplaced h.distinct
  rwa [show RoomState.events [] = [] from rfl, List.append_nil] at hfiled

/-- Another order is a list of the same events. -/
theorem reorder (h : ListsState room raws events) (hperm : raws.Perm raws') :
    ∃ events', ListsState room raws' events' ∧ events.Perm events' := by
  obtain ⟨events', hread, hevents⟩ := readEvents_perm hperm h.read
  exact ⟨events', ⟨fun raw hraw => h.json raw (hperm.mem_iff.mpr hraw), hread,
    fun e he => h.state e (hevents.mem_iff.mpr he), h.distinct.perm hevents (Std.Symm.symm _ _)⟩,
    hevents⟩

/-- The writes of two events are for different cells, or they are of one event. -/
theorem cells (h : ListsState room raws events) (hlevels : OneLevelsKey events) :
    ∀ w ∈ events.filterMap Event.write?, ∀ w' ∈ events.filterMap Event.write?,
      w = w' ∨ w.cell ≠ w'.cell := by
  intro w hw w' hw'
  obtain ⟨e, he, hwrite⟩ := List.mem_filterMap.mp hw
  obtain ⟨e', he', hwrite'⟩ := List.mem_filterMap.mp hw'
  by_cases hsame : e = e'
  · left
    rw [hsame, hwrite'] at hwrite
    exact (Option.some.inj hwrite).symm
  · right
    intro hcell
    have hplaces : e.Apart e' := h.distinct.forall he he' hsame
    obtain ⟨room₁, key₁, hroom, hkey, hcase⟩ := Event.cell_of_write? hwrite
    obtain ⟨room₂, key₂, hroom', hkey', hcase'⟩ := Event.cell_of_write? hwrite'
    rcases hcase with ⟨hmember, hw⟩ | ⟨hlevel, hw⟩
    · rcases hcase' with ⟨hmember', hw'⟩ | ⟨-, hw'⟩
      · -- Two members: the cell is the user, who is the state key.
        rw [hw, hw'] at hcell
        cases hcell
        apply hplaces
        rw [Store.type_of_isMember hmember, Store.type_of_isMember hmember', hkey, hkey']
      · rw [hw, hw'] at hcell
        cases hcell
    · rcases hcase' with ⟨-, hw'⟩ | ⟨hlevel', hw'⟩
      · rw [hw, hw'] at hcell
        cases hcell
      · -- Two power levels: the cell leaves the state key open, which is why one has to be given.
        apply hplaces
        rw [Event.isLevels_type hlevel, Event.isLevels_type hlevel',
          hlevels e he e' he' hlevel hlevel']

end ListsState

/-- What is listed is written, in the order in which it is filed. -/
theorem perform_state {room : String} {raws : List Value} {events : List Event}
    (hgate : (ensureJoined i (.text room) false none).outcome b = (.ok (), g))
    (hanswer : g.upcoming = some (.list raws)) (hlists : ListsState room raws events) :
    ∃ v c, (perform i (.state (.text room))).outcome b = (.ok v, c) ∧
      c.store = g.store.written ((events.foldl fileEvent []).events.filterMap Event.write?) := by
  have hstate : stateOf (.text room) (.list raws) = .ok (events.foldl fileEvent []) := by
    change (readEvents (.text room) raws).map _ = _
    rw [hlists.read]
    rfl
  have habsorbable := absorbable_of_stateOf (.list raws hlists.json) hstate
  obtain ⟨h, c, hout, hc⟩ := outcome_roomState hgate hanswer hstate
  rw [absorbEvents_ok habsorbable] at hout
  rw [Store.absorbed_written habsorbable] at hc
  refine ⟨(events.foldl fileEvent []).toValue, c, ?_, hc⟩
  change (RoomState.toValue <$> roomState i (.text room)).outcome b = _
  rw [Attempt.outcome_map, hout]
  rfl

/-- Two users, or one user twice, read the state of a room with the same in the store, and the same
events are listed to them, in whatever order. Then the same can be looked up in the store
afterwards. -/
theorem state_reordered {i' : Intent} {room : String} {b' g' : Bridge} {raws raws' : List Value}
    {events : List Event}
    (hgate : (ensureJoined i (.text room) false none).outcome b = (.ok (), g))
    (hgate' : (ensureJoined i' (.text room) false none).outcome b' = (.ok (), g'))
    (hstore : g.store.view = g'.store.view) (hanswer : g.upcoming = some (.list raws))
    (hanswer' : g'.upcoming = some (.list raws')) (hlists : ListsState room raws events)
    (hperm : raws.Perm raws') (hlevels : OneLevelsKey events) :
    ∃ v v' c c', (perform i (.state (.text room))).outcome b = (.ok v, c) ∧
      (perform i' (.state (.text room))).outcome b' = (.ok v', c') ∧
      c.store.view = c'.store.view := by
  obtain ⟨events', hlists', hevents⟩ := hlists.reorder hperm
  obtain ⟨v, c, hout, hc⟩ := perform_state hgate hanswer hlists
  obtain ⟨v', c', hout', hc'⟩ := perform_state hgate' hanswer' hlists'
  refine ⟨v, v', c, c', hout, hout', ?_⟩
  have hwrites := (hlists.perm_state.trans (hevents.trans hlists'.perm_state.symm)).filterMap
    Event.write?
  have hcells := hlists.cells hlevels
  have hmem := hlists.perm_state.filterMap Event.write?
  rw [hc, hc']
  refine Store.view_perm hwrites (fun w hw w' hw' => ?_) hstore
  exact hcells w (hmem.mem_iff.mp hw) w' (hmem.mem_iff.mp hw')

def Example.raw (type key : String) (content : List (String × Value)) : Value :=
  .record [("type", .text type), ("state_key", .text key), ("content", .record content)]

def Example.readAs (type key : String) (content : List (String × Value)) : Event :=
  .seen (.text "!r:hs") (.text type) (.text key) (.record content)

/-- Two events that can be listed together. -/
theorem Example.listsState_pair {type type' key key' : String}
    {content content' : List (String × Value)}
    (hread : Event.read (raw type key content) (.text "!r:hs") = .ok (readAs type key content))
    (hread' : Event.read (raw type' key' content') (.text "!r:hs") =
      .ok (readAs type' key' content'))
    (hjson : ∀ f ∈ content ++ content', f.2.IsJson) (hne : (type, key) ≠ (type', key')) :
    ListsState "!r:hs" [raw type key content, raw type' key' content']
      [readAs type key content, readAs type' key' content'] where
  json v hv := by
    have hraw (type key : String) {content : List (String × Value)}
        (h : ∀ f ∈ content, f.2.IsJson) : (raw type key content).IsJson := by
      refine Value.isJson_record fun f hf => ?_
      simp only [List.mem_cons, List.not_mem_nil, or_false] at hf
      rcases hf with rfl | rfl | rfl
      · exact .text type
      · exact .text key
      · exact Value.isJson_record h
    rcases List.mem_pair.mp hv with rfl | rfl
    · exact hraw type key fun f hf => hjson f (List.mem_append_left _ hf)
    · exact hraw type' key' fun f hf => hjson f (List.mem_append_right _ hf)
  read := readEvents_cons.mpr ⟨_, _, hread, readEvents_cons.mpr ⟨_, _, hread', rfl, rfl⟩, rfl⟩
  state e he := by
    rcases List.mem_pair.mp he with rfl | rfl <;> exact Value.noConfusion
  distinct := by
    refine List.pairwise_pair.mpr fun hsame => hne ?_
    simpa [readAs, Event.seen] using hsame

def Example.listing (raws : List Value) : Bridge :=
  { inside with answers := [.reply 200 (some (.list raws))] }

theorem Example.ensureJoined_listing (raws : List Value) :
    (ensureJoined alice (.text "!r:hs") false none).outcome (listing raws) =
      (.ok (), { listing raws with tally := (listing raws).tally.add .joinCacheHits 1 }) :=
  outcome_ensureJoined_known (knownIn_of_joined rfl rfl)

/-- The levels of the room and a member are listed either way. -/
theorem state_reordered_listing :
    let levels := Example.raw EventType.powerLevels "" [("users_default", .int 50)]
    let bob := Example.raw EventType.member "@bob:hs" [("membership", .text Membership.join)]
    ∃ v v' c c', (perform Example.alice (.state (.text "!r:hs"))).outcome
          (Example.listing [levels, bob]) = (.ok v, c) ∧
      (perform Example.alice (.state (.text "!r:hs"))).outcome
          (Example.listing [bob, levels]) = (.ok v', c') ∧
      c.store.view = c'.store.view := by
  intro levels bob
  have hjson : ∀ f ∈ [("users_default", Value.int 50), ("membership", .text Membership.join)],
      f.2.IsJson := by
    intro f hf
    rcases List.mem_pair.mp hf with rfl | rfl
    · exact .int 50
    · exact .text Membership.join
  have hlists : ListsState "!r:hs" [levels, bob] _ :=
    Example.listsState_pair rfl rfl hjson (by decide)
  refine state_reordered (Example.ensureJoined_listing _) (Example.ensureJoined_listing _) rfl rfl
    rfl hlists (.swap ..) fun e he e' he' hlevels hlevels' => ?_
  rcases List.mem_pair.mp he with rfl | rfl
  · rcases List.mem_pair.mp he' with rfl | rfl
    · rfl
    · cases hlevels'
  · cases hlevels

def Example.usersDefault? : PowerRecord → Option Int
  | .levels levels => some levels.usersDefault
  | .raw _ => none

/-- Power levels under two state keys are listed, and the last ones that are listed are kept. -/
theorem levels_kept_by_order :
    let plain := Example.raw EventType.powerLevels "" [("users_default", .int 50)]
    let keyed := Example.raw EventType.powerLevels "x" [("users_default", .int 10)]
    let after raws := ((perform Example.alice (.state (.text "!r:hs"))).outcome
      (Example.listing raws)).2.store
    (∃ events, ListsState "!r:hs" [plain, keyed] events) ∧
      (after [plain, keyed]).view ≠ (after [keyed, plain]).view := by
  intro plain keyed after
  have hjson : ∀ f ∈ [("users_default", Value.int 50), ("users_default", .int 10)],
      f.2.IsJson := by
    intro f hf
    rcases List.mem_pair.mp hf with rfl | rfl <;> exact .int _
  refine ⟨⟨_, Example.listsState_pair rfl rfl hjson (by decide)⟩, fun hsame => ?_⟩
  have hlevels := congrFun (congrArg Store.View.levels hsame) (.text "!r:hs")
  have hfirst : ((after [plain, keyed]).view.levels (.text "!r:hs")).bind Example.usersDefault? =
      some 10 := by decide +kernel
  have hlast : ((after [keyed, plain]).view.levels (.text "!r:hs")).bind Example.usersDefault? =
      some 50 := by decide +kernel
  rw [hlevels, hlast] at hfirst
  cases hfirst

end Bridge

end VirtualUsers
