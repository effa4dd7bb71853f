import Mathlib.Data.List.Dedup
import VirtualUsers.Proofs.Counts
import VirtualUsers.Proofs.InfiniteLevels
import VirtualUsers.Proofs.Unrecognised
/-!
# Room states that are read

The state of a room is read from a list as a whole or not at all. What is filed of it under a type
and a state key is the last element of the list that has both, and all of the list that has them is
filed. Each type with a state key counts once, and the members of the room have the records that
are filed for them.

Taking in what is filed has one exception to this. An infinite level is no number that the store
can keep, so the state is taken in up to it and no further, and nothing is returned or counted.
-/

namespace VirtualUsers

/-! ## Places -/

def Value.place? : Value → Option (String × String)
  | .map entries =>
    match lookup? "type" entries, lookup? "state_key" entries with
    | some (.text type), some (.text key) => some (type, key)
    | _, _ => none
  | _ => none

namespace Event

open Bridge (Placed)

def place? (e : Event) : Option (String × String) :=
  match e.type, e.stateKey with
  | .text type, .text key => some (type, key)
  | _, _ => none

theorem place?_eq_some {e : Event} {type key : String} :
    e.place? = some (type, key) ↔ Placed type key e := by
  rw [place?, Placed]
  cases e.type with
  | text t =>
    cases e.stateKey with
    | text k => simp
    | _ => simp
  | _ => simp

/-- What is a text and not empty, with the empty text in place of what is empty, is that text. -/
theorem text_of_isNonEmptyText {v : Value} (h : isNonEmptyText (v.orElse (.text "")) = true) :
    ∃ t, v = .text t ∧ v.orElse (.text "") = .text t := by
  rw [Value.orElse] at h ⊢
  split at h
  · next htruthy =>
    rw [if_pos htruthy]
    cases v with
    | text t => exact ⟨t, rfl, rfl⟩
    | _ => cases h
  · cases h

/-- An event has the place of the element that it was read from. -/
theorem place?_of_read {raw room : Value} {e : Event} (h : read raw room = .ok e) :
    e.place? = raw.place? := by
  obtain ⟨hvalid, entries, rfl, rfl⟩ := of_read h
  obtain ⟨-, htype, -, -⟩ := validate_eq_ok_iff.mp hvalid
  obtain ⟨t, ht, horElse⟩ := text_of_isNonEmptyText htype
  rw [place?, Value.place?, taken]
  dsimp only
  rw [horElse]
  cases hfound : Value.lookup? "type" entries with
  | none =>
    rw [hfound] at ht
    cases ht
  | some v =>
    rw [hfound, Option.getD_some] at ht
    rw [ht]
    cases Value.lookup? "state_key" entries with
    | none => rfl
    | some k => cases k <;> rfl

end Event

namespace Bridge

variable {i : Intent} {b : Bridge} {room type key : String} {e : Event} {events : List Event}
  {raws : List Value} {state : RoomState}

/-! ## What is filed -/

theorem fileEvent_nowhere (h : e.place? = none) : fileEvent state e = state := by
  rw [Event.place?] at h
  rw [fileEvent]
  split
  · next htype hkey =>
    rw [htype, hkey] at h
    cases h
  · rfl

/-- The last event for a place is filed there, or what was there before. -/
theorem filed?_foldl (type key : String) (events : List Event) (state : RoomState) :
    filed? type key (events.foldl fileEvent state) =
      (events.reverse.find? fun e => e.place? = some (type, key)).or (filed? type key state) := by
  induction events generalizing state with
  | nil => rfl
  | cons e events ih =>
    rw [List.foldl_cons, ih, List.reverse_cons, List.find?_append, Option.or_assoc]
    congr 1
    cases hplace : e.place? with
    | none => simp [fileEvent_nowhere hplace, hplace]
    | some place =>
      obtain ⟨type', key'⟩ := place
      rw [filed?_fileEvent (Event.place?_eq_some.mp hplace)]
      by_cases hsame : (type', key') = (type, key)
      · cases hsame
        simp [hplace]
      · have hother : ¬ (type = type' ∧ key = key') := fun h => hsame (by rw [h.1, h.2])
        rw [if_neg hother, List.find?_singleton]
        simp [hplace, hsame]

/-- No two events of the state have one place, and each is filed in its place. -/
structure Filing (state : RoomState) : Prop where
  distinct : (state.events.map Event.place?).Nodup
  filed : ∀ e ∈ state.events, ∃ type key, Placed type key e ∧ filed? type key state = some e
  placed : ∀ type key e, filed? type key state = some e → Placed type key e

theorem mem_of_filed? (h : filed? type key state = some e) : e ∈ state.events := by
  obtain ⟨byKey, htype, hkey⟩ := Option.bind_eq_some_iff.mp h
  exact List.mem_flatMap.mpr
    ⟨(type, byKey), Table.mem_of_get? htype, List.mem_map_of_mem (Table.mem_of_get? hkey)⟩

/-- An event that is filed in a place takes the place of the one that was there. -/
theorem perm_fileEvent_old {old : Event} (h : Placed type key e)
    (hold : filed? type key state = some old) :
    ∃ rest, state.events.Perm (old :: rest) ∧ (fileEvent state e).events.Perm (e :: rest) := by
  obtain ⟨byKey, htype, hkey⟩ := Option.bind_eq_some_iff.mp hold
  obtain ⟨others, hstate, hput⟩ := Table.perm_put_of_get?_some htype (Table.put key e byKey)
  obtain ⟨rest, hbyKey, hkeyed⟩ := Table.perm_put_of_get?_some hkey e
  refine ⟨rest.map (·.2) ++ RoomState.events others, ?_, ?_⟩
  · exact (hstate.flatMap_right _).trans ((hbyKey.map (·.2)).append_right _)
  · rw [fileEvent_placed h, htype]
    exact (hput.flatMap_right _).trans ((hkeyed.map (·.2)).append_right _)

theorem filing_fileEvent (h : Filing state) (e : Event) : Filing (fileEvent state e) := by
  cases hplace : e.place? with
  | none => rwa [fileEvent_nowhere hplace]
  | some place =>
    obtain ⟨type, key⟩ := place
    have he := Event.place?_eq_some.mp hplace
    have hkept {x : Event} (hx : x ∈ state.events) (hne : x.place? ≠ some (type, key)) :
        ∃ type' key', Placed type' key' x ∧ filed? type' key' (fileEvent state e) = some x := by
      obtain ⟨type', key', hplaced, hfiled⟩ := h.filed x hx
      refine ⟨type', key', hplaced, ?_⟩
      rw [filed?_fileEvent he, if_neg, hfiled]
      rintro ⟨rfl, rfl⟩
      exact hne (Event.place?_eq_some.mpr hplaced)
    have hself : filed? type key (fileEvent state e) = some e := by
      rw [filed?_fileEvent he, if_pos ⟨rfl, rfl⟩]
    have hplaced (type' key' : String) (x : Event)
        (hx : filed? type' key' (fileEvent state e) = some x) : Placed type' key' x := by
      rw [filed?_fileEvent he] at hx
      split at hx
      · next hsame =>
        cases hx
        rwa [hsame.1, hsame.2]
      · exact h.placed type' key' x hx
    -- What is left of the state has other places than the event.
    have hrest {rest : List Event} (hafter : (fileEvent state e).events.Perm (e :: rest))
        (hbefore : ∀ x ∈ rest, x ∈ state.events) (hdistinct : (rest.map Event.place?).Nodup)
        (hnew : some (type, key) ∉ rest.map Event.place?) : Filing (fileEvent state e) := by
      refine ⟨?_, fun x hx => ?_, hplaced⟩
      · rw [(hafter.map _).nodup_iff, List.map_cons, hplace]
        exact List.nodup_cons.mpr ⟨hnew, hdistinct⟩
      · rcases List.mem_cons.mp (hafter.mem_iff.mp hx) with rfl | hx
        · exact ⟨type, key, he, hself⟩
        · exact hkept (hbefore x hx) fun hsame => hnew (hsame ▸ List.mem_map_of_mem hx)
    cases hold : filed? type key state with
    | none =>
      refine hrest (perm_fileEvent he hold) (fun x hx => hx) h.distinct fun hmem => ?_
      obtain ⟨x, hx, hsame⟩ := List.mem_map.mp hmem
      obtain ⟨type', key', hplaced', hfiled⟩ := h.filed x hx
      rw [Event.place?_eq_some.mpr hplaced'] at hsame
      cases hsame
      rw [hold] at hfiled
      cases hfiled
    | some old =>
      obtain ⟨rest, hbefore, hafter⟩ := perm_fileEvent_old he hold
      have hplaces := (hbefore.map Event.place?).nodup_iff.mp h.distinct
      rw [List.map_cons, Event.place?_eq_some.mpr (h.placed type key old hold)] at hplaces
      obtain ⟨hnew, hdistinct⟩ := List.nodup_cons.mp hplaces
      exact hrest hafter (fun x hx => hbefore.mem_iff.mpr (List.mem_cons_of_mem old hx)) hdistinct
        hnew

theorem filing_foldl (events : List Event) : Filing (events.foldl fileEvent []) := by
  have hfold (state : RoomState) (h : Filing state) : Filing (events.foldl fileEvent state) := by
    induction events generalizing state with
    | nil => exact h
    | cons e events ih => exact ih _ (filing_fileEvent h e)
  exact hfold [] ⟨List.nodup_nil, nofun, nofun⟩

/-! ## What is read of a list -/

theorem readEvents_append {room : Value} {before after : List Value}
    (h : readEvents room (before ++ after) = .ok events) :
    ∃ first second, readEvents room before = .ok first ∧ readEvents room after = .ok second ∧
      events = first ++ second := by
  rw [readEvents, List.mapM_append] at h
  obtain ⟨first, hfirst, h⟩ := bind_eq_ok h
  obtain ⟨second, hsecond, h⟩ := bind_eq_ok h
  cases h
  exact ⟨first, second, hfirst, hsecond, rfl⟩

theorem readEvents_ok {room : Value} (h : ∀ raw ∈ raws, ∃ e, Event.read raw room = .ok e) :
    ∃ events, readEvents room raws = .ok events := by
  induction raws with
  | nil => exact ⟨[], rfl⟩
  | cons raw raws ih =>
    obtain ⟨e, he⟩ := h raw List.mem_cons_self
    obtain ⟨rest, hrest⟩ := ih fun raw' hraw' => h raw' (List.mem_cons_of_mem raw hraw')
    exact ⟨e :: rest, readEvents_cons.mpr ⟨e, rest, he, hrest, rfl⟩⟩

theorem exists_read_of_readEvents {room : Value} (h : readEvents room raws = .ok events) :
    ∀ raw ∈ raws, ∃ e ∈ events, Event.read raw room = .ok e := by
  intro raw hraw
  obtain ⟨before, after, rfl⟩ := List.append_of_mem hraw
  obtain ⟨first, second, -, hsecond, rfl⟩ := readEvents_append h
  obtain ⟨e, rest, he, -, rfl⟩ := readEvents_cons.mp hsecond
  exact ⟨e, List.mem_append_right _ List.mem_cons_self, he⟩

/-- The state has an entry for each place of the list and for no other, and it is what is read of
the last element with that place. -/
structure Lists (room : String) (raws : List Value) (state : RoomState) : Prop where
  complete : ∀ type key, (∃ e, filed? type key state = some e) ↔
    ∃ raw ∈ raws, raw.place? = some (type, key)
  last : ∀ before raw after type key, raws = before ++ raw :: after →
    raw.place? = some (type, key) → (∀ raw' ∈ after, raw'.place? ≠ some (type, key)) →
    ∃ e, Event.read raw (.text room) = .ok e ∧ filed? type key state = some e
  filed : ∀ e ∈ state.events, ∃ type key, filed? type key state = some e
  length : state.events.length = (raws.filterMap Value.place?).dedup.length

theorem filed?_read {room : Value} (h : readEvents room raws = .ok events) (type key : String) :
    (∃ e, filed? type key (events.foldl fileEvent []) = some e) ↔
      ∃ raw ∈ raws, raw.place? = some (type, key) := by
  have hfiled : filed? type key (events.foldl fileEvent []) =
      events.reverse.find? fun e => e.place? = some (type, key) := by
    rw [filed?_foldl]
    exact Option.or_none
  rw [hfiled]
  constructor
  · rintro ⟨e, he⟩
    have hplace : e.place? = some (type, key) := by simpa using List.find?_some he
    have hmem := List.mem_reverse.mp (List.mem_of_find?_eq_some he)
    obtain ⟨raw, hraw, hread⟩ := mem_readEvents h hmem
    exact ⟨raw, hraw, (Event.place?_of_read hread).symm.trans hplace⟩
  · rintro ⟨raw, hraw, hplace⟩
    obtain ⟨e, he, hread⟩ := exists_read_of_readEvents h raw hraw
    refine Option.isSome_iff_exists.mp (List.find?_isSome.mpr ⟨e, List.mem_reverse.mpr he, ?_⟩)
    exact decide_eq_true ((Event.place?_of_read hread).trans hplace)

theorem lists_readEvents (h : readEvents (.text room) raws = .ok events) :
    Lists room raws (events.foldl fileEvent []) where
  complete type key := filed?_read h type key
  last before raw after type key hraws hplace hlast := by
    rw [hraws] at h
    obtain ⟨first, second, -, hsecond, rfl⟩ := readEvents_append h
    obtain ⟨e, rest, he, hrest, rfl⟩ := readEvents_cons.mp hsecond
    refine ⟨e, he, ?_⟩
    have hnone : filed? type key (rest.foldl fileEvent []) = none := by
      rw [Option.eq_none_iff_forall_ne_some]
      intro x hx
      obtain ⟨raw', hraw', hplace'⟩ := (filed?_read hrest type key).mp ⟨x, hx⟩
      exact hlast raw' hraw' hplace'
    rw [filed?_foldl] at hnone
    have hplaced := Event.place?_eq_some.mp ((Event.place?_of_read he).trans hplace)
    rw [List.foldl_append, List.foldl_cons, filed?_foldl, (Option.or_eq_none_iff.mp hnone).1,
      Option.none_or, filed?_fileEvent hplaced, if_pos ⟨rfl, rfl⟩]
  filed e he := by
    obtain ⟨type, key, -, hfiled⟩ := (filing_foldl events).filed e he
    exact ⟨type, key, hfiled⟩
  length := by
    have hfiling := filing_foldl events
    have hplaces : ((events.foldl fileEvent []).events.map Event.place?).Perm
        ((raws.filterMap Value.place?).dedup.map some) := by
      refine (List.perm_ext_iff_of_nodup hfiling.distinct ?_).mpr fun place => ?_
      · exact (List.nodup_dedup _).map fun _ _ => Option.some.inj
      · constructor
        · intro hmem
          obtain ⟨e, he, rfl⟩ := List.mem_map.mp hmem
          obtain ⟨type, key, hplaced, hfiled⟩ := hfiling.filed e he
          obtain ⟨raw, hraw, hplace⟩ := (filed?_read h type key).mp ⟨e, hfiled⟩
          rw [Event.place?_eq_some.mpr hplaced]
          have hlisted := List.mem_filterMap.mpr ⟨raw, hraw, hplace⟩
          exact List.mem_map_of_mem (List.mem_dedup.mpr hlisted)
        · intro hmem
          obtain ⟨⟨type, key⟩, hplace, rfl⟩ := List.mem_map.mp hmem
          obtain ⟨raw, hraw, hplace⟩ := List.mem_filterMap.mp (List.mem_dedup.mp hplace)
          obtain ⟨e, he⟩ := (filed?_read h type key).mpr ⟨raw, hraw, hplace⟩
          rw [← Event.place?_eq_some.mpr (hfiling.placed type key e he)]
          exact List.mem_map_of_mem (mem_of_filed? he)
    have hlength := hplaces.length_eq
    rwa [List.length_map, List.length_map] at hlength

/-! ## Member records -/

theorem isMember_of_placed (h : Placed EventType.member key e) : e.isMember := by
  rw [Event.isMember, h.1]
  exact beq_self_eq_true _

/-- The event of a member leaves the record that it gives, or the one that was there. -/
theorem cell?_observe_placed {user : String} (hplaced : Placed EventType.member user e)
    (hroom : e.room = .text room) (s : Store) :
    Store.cell? (.text room) (.text user) ((Store.observe e).outcome s).2.members =
      e.record?.or (Store.cell? (.text room) (.text user) s.members) := by
  have hnull : ¬ e.stateKey.isNull := by
    rw [hplaced.2]
    exact Bool.false_ne_true
  rw [Store.observe, if_neg hnull, if_pos ((Store.isMember_iff e).mp (isMember_of_placed hplaced)),
    Store.state_observeMember hroom hplaced.2]
  cases e.record? with
  | none => rfl
  | some record => exact Store.cell?_enter_self _ _ record _

/-- Of events with places of their own each member has the record of the one event for it. -/
theorem cell?_absorbed_placed (hdistinct : (events.map Event.place?).Nodup)
    (hvalid : ∀ e ∈ events, e.validate = .ok () ∧ e.isInfinite = false)
    (hroom : ∀ e ∈ events, e.room = .text room) (user : String) (s : Store) :
    Store.cell? (.text room) (.text user) (s.absorbed events).members =
      ((events.find? fun e => e.place? = some (EventType.member, user)).bind Event.record?).or
        (Store.cell? (.text room) (.text user) s.members) := by
  induction events generalizing s with
  | nil => rfl
  | cons e events ih =>
    obtain ⟨hnew, hothers⟩ := List.nodup_cons.mp hdistinct
    have hstep : s.absorbed (e :: events) = ((Store.observe e).outcome s).2.absorbed events := by
      have hfirst : s.absorbed [e] = ((Store.observe e).outcome s).2 := by
        rw [Store.absorbed]
        rcases (Store.observe e).outcome s with ⟨_ | _, _⟩ <;> rfl
      rw [← hfirst, ← Store.absorbed_append fun x hx => ?_]
      · rfl
      · rw [List.mem_singleton.mp hx]
        exact hvalid e List.mem_cons_self
    rw [hstep, ih hothers (fun x hx => hvalid x (List.mem_cons_of_mem e hx))
      fun x hx => hroom x (List.mem_cons_of_mem e hx)]
    by_cases hplace : e.place? = some (EventType.member, user)
    · have hnone : (events.find? fun e => e.place? = some (EventType.member, user)) = none := by
        refine List.find?_eq_none.mpr fun x hx hsame => hnew ?_
        rw [hplace, ← of_decide_eq_true hsame]
        exact List.mem_map_of_mem hx
      rw [hnone, cell?_observe_placed (Event.place?_eq_some.mp hplace)
        (hroom e List.mem_cons_self)]
      simp [hplace]
    · have hother (hmember : e.isMember) (hkey : e.stateKey = .text user) : e.isUnrecognised :=
        absurd (Event.place?_eq_some.mpr ⟨Store.type_of_isMember hmember, hkey⟩) hplace
      rw [List.find?_cons_of_neg (by simpa using hplace), Store.cell?_observe hother]

theorem filed?_eq_find? (h : Filing state) (type key : String) :
    filed? type key state = state.events.find? fun e => e.place? = some (type, key) := by
  cases hfound : state.events.find? fun e => e.place? = some (type, key) with
  | none =>
    refine Option.eq_none_iff_forall_ne_some.mpr fun e he => ?_
    exact List.find?_eq_none.mp hfound e (mem_of_filed? he)
      (decide_eq_true (Event.place?_eq_some.mpr (h.placed type key e he)))
  | some e =>
    have hplace : e.place? = some (type, key) := by simpa using List.find?_some hfound
    obtain ⟨type', key', hplaced, hfiled⟩ := h.filed e (List.mem_of_find?_eq_some hfound)
    cases (Event.place?_eq_some.mpr hplaced).symm.trans hplace
    exact hfiled

/-! ## Reading a whole state -/

/-- The element names the room, or none. -/
def NamesRoom (room : String) (raw : Value) : Prop :=
  ∀ v, raw.field "room_id" = .ok v → v.truthy → v = .text room

theorem room_of_read {raw : Value} (hraw : NamesRoom room raw)
    (h : Event.read raw (.text room) = .ok e) : e.room = .text room := by
  obtain ⟨-, entries, rfl, rfl⟩ := Event.of_read h
  have hnamed := hraw _ (Value.field_map "room_id" entries)
  have hnone : (Value.text room).orElse (.text "") = .text room := by
    rw [Value.orElse]
    split
    · rfl
    · next hempty =>
      have hroom : room = "" := by simpa [Value.truthy] using hempty
      rw [hroom]
  rw [Event.taken]
  dsimp only
  rw [hnone, Value.orElse]
  split
  · next htruthy => exact hnamed htruthy
  · rfl

theorem state_of_events {room : Value} (h : readEvents room raws = .ok events) :
    ∀ e ∈ (events.foldl fileEvent []).events, ∃ raw ∈ raws, Event.read raw room = .ok e := by
  intro e he
  rcases mem_fileEvents he with he | he
  · exact mem_readEvents h he
  · cases he

/-- The state is the one that is read from the list. Its events are valid, and they are in the room
if no element names another one. -/
structure ReadFrom (room : String) (raws : List Value) (state : RoomState) : Prop where
  read : stateOf (.text room) (.list raws) = .ok state
  lists : Lists room raws state
  filing : Filing state
  valid : ∀ e ∈ state.events, e.validate = .ok ()
  inRoom (hrooms : ∀ raw ∈ raws, NamesRoom room raw) : ∀ e ∈ state.events, e.room = .text room

theorem exists_readFrom (hread : ∀ raw ∈ raws, ∃ e, Event.read raw (.text room) = .ok e) :
    ∃ state, ReadFrom room raws state := by
  obtain ⟨events, hevents⟩ := readEvents_ok hread
  refine ⟨events.foldl fileEvent [], ?_, lists_readEvents hevents, filing_foldl events,
    fun e he => ?_, fun hrooms e he => ?_⟩
  · change (readEvents (.text room) raws).map _ = _
    rw [hevents]
    rfl
  · obtain ⟨raw, -, hraw⟩ := state_of_events hevents e he
    exact (Event.of_read hraw).1
  · obtain ⟨raw, hraw, hreads⟩ := state_of_events hevents e he
    exact room_of_read (hrooms raw hraw) hreads

theorem stateOf_rejected (hread : ∃ raw ∈ raws, ∀ e, Event.read raw (.text room) ≠ .ok e) :
    ∃ f, stateOf (.text room) (.list raws) = .error f := by
  obtain ⟨raw, hraw, hrejected⟩ := hread
  cases hevents : readEvents (.text room) raws with
  | ok events =>
    obtain ⟨e, -, he⟩ := exists_read_of_readEvents hevents raw hraw
    exact absurd he (hrejected e)
  | error f =>
    refine ⟨f, ?_⟩
    change (readEvents (.text room) raws).map _ = _
    rw [hevents]
    rfl

/-! ## Taking in a whole state -/

theorem absorbEvents_finite (h : ∀ e ∈ events, e.validate = .ok () ∧ e.isInfinite = false)
    (b : Bridge) :
    ∃ c, (absorbEvents events).outcome b = (.ok (events.length : Int), c) ∧
      c.store = b.store.absorbed events ∧ c.tally = b.tally := by
  have hnone : events.any Event.isInfinite = false :=
    List.any_eq_false.mpr fun e he => by rw [(h e he).2]; exact Bool.false_ne_true
  have hresult := absorbEvents_result (fun e he => (h e he).1) b
  rw [hnone] at hresult
  exact ⟨_, Prod.ext hresult rfl, store_absorbEvents events b, fixes_absorbEvents events b⟩

/-- The first event with an infinite level is where the taking in ends. -/
theorem absorbEvents_infinite (hvalid : ∀ e ∈ events, e.validate = .ok ())
    (h : ∃ e ∈ events, e.isInfinite = true) (b : Bridge) :
    ∃ before e after c, events = before ++ e :: after ∧ e.isInfinite = true ∧
      (∀ x ∈ before, x.isInfinite = false) ∧
      (absorbEvents events).outcome b = (.error .overflow, c) ∧
      c.store = b.store.absorbed before ∧ c.tally = b.tally := by
  have hresult := absorbEvents_result hvalid b
  rw [List.any_eq_true.mpr h] at hresult
  obtain ⟨e, hfirst⟩ := Option.isSome_iff_exists.mp (List.find?_isSome.mpr h)
  obtain ⟨hinfinite, before, after, rfl, hbefore⟩ := List.find?_eq_some_iff_append.mp hfirst
  have hfinite : ∀ x ∈ before, x.isInfinite = false := fun x hx => by simpa using hbefore x hx
  have hleft : b.store.absorbed (before ++ e :: after) = b.store.absorbed before :=
    Store.absorbed_overflow
      (fun x hx => ⟨hvalid x (List.mem_append_left _ hx), hfinite x hx⟩)
      (hvalid e (List.mem_append_right _ List.mem_cons_self)) hinfinite after b.store
  exact ⟨before, e, after, _, rfl, hinfinite, hfinite, Prod.ext hresult rfl,
    (store_absorbEvents _ b).trans hleft, fixes_absorbEvents _ b⟩

/-- The list is read, and then the state that it gives is taken in and counted. -/
theorem outcome_state_known (hjoined : KnownIn i (.text room) b.store)
    (hanswer : b.upcoming = some (.list raws)) :
    ∃ c, c.store = b.store ∧ c.tally = b.tally.add .joinCacheHits 1 ∧
      (perform i (.state (.text room))).outcome b = Attempt.follow (fun state =>
        absorbEvents state.events >>= fun n => count .stateAbsorbed n >>= fun _ =>
          pure state.toValue) (stateOf (.text room) (.list raws), c) := by
  let g : Bridge := { b with tally := b.tally.add .joinCacheHits 1 }
  have hmakes : Makes g (stateOf (.text room)) (readRoomState i.client (.text room)) :=
    .check (segment_text room) ((makes_send g i.client _ _ _ _).reading (stateOf (.text room)))
  obtain ⟨x, c, hout, hheard⟩ := hmakes
  have hx : x.content = .ok (.list raws) := hheard.content_iff.mpr hanswer
  have hperform : (perform i (.state (.text room))).outcome b =
      (RoomState.toValue <$> roomState i (.text room)).outcome b := rfl
  refine ⟨c, hheard.store, hheard.tally, ?_⟩
  rw [hperform, roomState, map_bind, Attempt.outcome_bind, outcome_ensureJoined_known hjoined,
    Attempt.follow_ok, map_bind, Attempt.outcome_bind, hout, hx]
  simp only [map_bind, map_pure]
  rfl

/-- What comes of a user's reading the state of a room where the user is known to be, from the list
of the answer. If an element is no event then nothing is taken in, and otherwise the last element
for each place is. But if a level is infinite then only what comes before it is taken in, and then
nothing is returned or counted. -/
structure ReadsState (i : Intent) (room : String) (raws : List Value) (b : Bridge) : Prop where
  taken (hread : ∀ raw ∈ raws, ∃ e, Event.read raw (.text room) = .ok e) :
    ∃ state, Lists room raws state ∧
      ((∀ e ∈ state.events, e.isInfinite = false) →
        ∃ c, (perform i (.state (.text room))).outcome b = (.ok state.toValue, c) ∧
          c.tally = (b.tally.add .joinCacheHits 1).add .stateAbsorbed
            (raws.filterMap Value.place?).dedup.length ∧
          ((∀ raw ∈ raws, NamesRoom room raw) → ∀ user,
            Store.cell? (.text room) (.text user) c.store.members =
              ((filed? EventType.member user state).bind Event.record?).or
                (Store.cell? (.text room) (.text user) b.store.members))) ∧
      ((∃ e ∈ state.events, e.isInfinite = true) →
        ∃ before e after c, state.events = before ++ e :: after ∧ e.isInfinite = true ∧
          (∀ x ∈ before, x.isInfinite = false) ∧
          (perform i (.state (.text room))).outcome b = (.error .overflow, c) ∧
          c.tally = b.tally.add .joinCacheHits 1 ∧ c.store = b.store.absorbed before ∧
          ((∀ raw ∈ raws, NamesRoom room raw) → ∀ user,
            Store.cell? (.text room) (.text user) c.store.members =
              ((before.find? fun x => x.place? = some (EventType.member, user)).bind
                Event.record?).or (Store.cell? (.text room) (.text user) b.store.members)))
  refused (hread : ∃ raw ∈ raws, ∀ e, Event.read raw (.text room) ≠ .ok e) :
    ∃ f c, (perform i (.state (.text room))).outcome b = (.error f, c) ∧ c.store = b.store ∧
      c.tally = b.tally.add .joinCacheHits 1

/-- Whatever list answers, it is read as a whole or not at all, and the last element counts; but an
infinite level ends the reading half-way. -/
theorem state_read_whole (hjoined : KnownIn i (.text room) b.store)
    (hanswer : b.upcoming = some (.list raws)) : ReadsState i room raws b := by
  obtain ⟨c, hstore, htally, hout⟩ := outcome_state_known hjoined hanswer
  refine ⟨fun hread => ?_, fun hread => ?_⟩
  · obtain ⟨state, h⟩ := exists_readFrom hread
    rw [h.read, Attempt.follow_ok, Attempt.outcome_bind] at hout
    refine ⟨state, h.lists, fun hfinite => ?_, fun hinfinite => ?_⟩
    · have htaken : ∀ e ∈ state.events, e.validate = .ok () ∧ e.isInfinite = false :=
        fun e he => ⟨h.valid e he, hfinite e he⟩
      obtain ⟨d, habsorbed, hleft, hkept⟩ := absorbEvents_finite htaken c
      rw [habsorbed, Attempt.follow_ok] at hout
      refine ⟨{ d with tally := d.tally.add .stateAbsorbed state.events.length }, hout, ?_,
        fun hrooms user => ?_⟩
      · change d.tally.add _ _ = _
        rw [hkept, htally, h.lists.length]
      · change Store.cell? _ _ d.store.members = _
        rw [hleft, hstore, filed?_eq_find? h.filing]
        exact cell?_absorbed_placed h.filing.distinct htaken (h.inRoom hrooms) user b.store
    · obtain ⟨before, e, after, d, hsplit, hends, hfinite, habsorbed, hleft, hkept⟩ :=
        absorbEvents_infinite h.valid hinfinite c
      rw [habsorbed, Attempt.follow_error] at hout
      rw [hstore] at hleft
      refine ⟨before, e, after, d, hsplit, hends, hfinite, hout, hkept.trans htally, hleft,
        fun hrooms user => ?_⟩
      have hpart : ∀ x ∈ before, x ∈ state.events := fun x hx =>
        hsplit ▸ List.mem_append_left _ hx
      have hdistinct := h.filing.distinct
      rw [hsplit, List.map_append] at hdistinct
      rw [hleft]
      exact cell?_absorbed_placed (List.nodup_append.mp hdistinct).1
        (fun x hx => ⟨h.valid x (hpart x hx), hfinite x hx⟩)
        (fun x hx => h.inRoom hrooms x (hpart x hx)) user b.store
  · obtain ⟨f, hrejected⟩ := stateOf_rejected hread
    rw [hrejected] at hout
    exact ⟨f, c, hout, hstore, htally⟩

/-- Of two events for one member the last one counts, and one without a state key does not. With an
element that is no event nothing is read. -/
theorem state_read_whole_twice :
    let join := Example.raw EventType.member "@bob:hs" [("membership", .text Membership.join)]
    let leave := Example.raw EventType.member "@bob:hs" [("membership", .text Membership.leave)]
    let keyless := Value.record [("type", .text EventType.member)]
    let read (raws : List Value) :=
      (perform Example.alice (.state (.text "!r:hs"))).outcome (Example.listing raws)
    (∃ v c record, read [join, keyless, leave] = (.ok v, c) ∧ c.tally.count .stateAbsorbed = 1 ∧
      Store.cell? (.text "!r:hs") (.text "@bob:hs") c.store.members = some record ∧
      record.membership = .text Membership.leave) ∧
    ∃ f c, read [join, .null] = (.error f, c) ∧ c.store = Example.inside.store ∧
      c.tally.count .stateAbsorbed = 0 := by
  intro join leave keyless read
  have hread (raws : List Value) : ReadsState Example.alice "!r:hs" raws (Example.listing raws) :=
    state_read_whole (knownIn_of_joined rfl rfl) rfl
  refine ⟨?_, ?_⟩
  · have hevents : ∀ raw ∈ [join, keyless, leave], ∃ e,
        Event.read raw (.text "!r:hs") = .ok e := by
      intro raw hraw
      simp only [List.mem_cons, List.not_mem_nil, or_false] at hraw
      rcases hraw with rfl | rfl | rfl <;> exact ⟨_, rfl⟩
    obtain ⟨state, hlists, hfinite, -⟩ := (hread [join, keyless, leave]).taken hevents
    obtain ⟨e, he, hfiled⟩ :=
      hlists.last [join, keyless] leave [] EventType.member "@bob:hs" rfl rfl nofun
    cases he
    have hsingle : ∀ x ∈ state.events, x.isInfinite = false := by
      intro x hx
      obtain ⟨type, key, hx⟩ := hlists.filed x hx
      obtain ⟨raw, hraw, hplace⟩ := (hlists.complete type key).mp ⟨x, hx⟩
      simp only [List.mem_cons, List.not_mem_nil, or_false] at hraw
      rcases hraw with rfl | rfl | rfl <;> cases hplace
      · cases hfiled.symm.trans hx
        rfl
      · cases hfiled.symm.trans hx
        rfl
    obtain ⟨c, hout, htally, hcell⟩ := hfinite hsingle
    have hrooms : ∀ raw ∈ [join, keyless, leave], NamesRoom "!r:hs" raw := by
      intro raw hraw v hv htruthy
      simp only [List.mem_cons, List.not_mem_nil, or_false] at hraw
      rcases hraw with rfl | rfl | rfl <;> cases hv <;> cases htruthy
    have hbob := hcell hrooms "@bob:hs"
    rw [hfiled] at hbob
    refine ⟨_, c, _, hout, ?_, hbob, rfl⟩
    rw [htally]
    decide +kernel
  · obtain ⟨f, c, hout, hstore, htally⟩ := (hread [join, .null]).refused
      ⟨.null, List.mem_cons_of_mem _ List.mem_cons_self, nofun⟩
    refine ⟨f, c, hout, hstore, ?_⟩
    rw [htally]
    decide +kernel

/-- All elements are events. One has an infinite level, so nothing is returned or counted, and yet
the member before it is in the room from then on. -/
theorem state_half_read :
    let join := Example.raw EventType.member "@bob:hs" [("membership", .text Membership.join)]
    let levels := Example.raw EventType.powerLevels "" [("ban", .real (.infinity false))]
    let read := (perform Example.alice (.state (.text "!r:hs"))).outcome
      (Example.listing [join, levels])
    (∀ raw ∈ [join, levels], ∃ e, Event.read raw (.text "!r:hs") = .ok e) ∧
      read.1 = .error .overflow ∧ read.2.tally.count .stateAbsorbed = 0 ∧
      (read.2.store.isJoined (.text "!r:hs") (.text "@bob:hs")).toOption = some true := by
  intro join levels read
  refine ⟨fun raw hraw => ?_, by with_unfolding_all rfl, ?_, ?_⟩
  · simp only [List.mem_cons, List.not_mem_nil, or_false] at hraw
    rcases hraw with rfl | rfl <;> exact ⟨_, rfl⟩
  · decide +kernel
  · decide +kernel

end Bridge

end VirtualUsers
