import VirtualUsers.Bridge.Observation
import VirtualUsers.Proofs.Traffic
/-!
# What can be absorbed

The bodies of answers are JSON: keys are texts and numbers are finite. Events that were read from
such a body are taken in without a failure, so that of many events none is left out.
-/

namespace VirtualUsers

inductive Value.IsJson : Value → Prop
  | null : IsJson .null
  | bool (b : Bool) : IsJson (.bool b)
  | int (n : Int) : IsJson (.int n)
  | real (x : Double) (h : x.isFinite) : IsJson (.real x)
  | text (s : String) : IsJson (.text s)
  | list (items : List Value) (h : ∀ v ∈ items, IsJson v) : IsJson (.list items)
  | map (entries : List (Value × Value)) (hkeys : ∀ e ∈ entries, ∃ k, e.1 = .text k)
      (h : ∀ e ∈ entries, IsJson e.2) : IsJson (.map entries)

def Answer.IsJson : Answer → Prop
  | .reply _ (some body) => body.IsJson
  | _ => True

theorem Value.isJson_nil : (Value.map []).IsJson :=
  .map [] (fun _ he => absurd he List.not_mem_nil) fun _ he => absurd he List.not_mem_nil

theorem Answer.isJson_empty : Answer.empty.IsJson :=
  Value.isJson_nil

theorem Answer.IsJson.content {a : Answer} {endpoint : Endpoint} {data : Value} (h : a.IsJson)
    (hdata : a.content endpoint = .ok data) : data.IsJson := by
  cases a with
  | unreachable text => cases hdata
  | reply status body =>
    simp only [Answer.content] at hdata
    split at hdata
    · cases hr : Answer.refusal status (body.getD .null) with
      | error e => rw [hr] at hdata; cases hdata
      | ok q => rw [hr] at hdata; cases hdata
    · cases body with
      | none =>
        cases hdata
        exact Value.isJson_nil
      | some body =>
        by_cases hnull : body.isNull
        · simp only [Option.getD_some, hnull, if_true] at hdata
          cases hdata
          exact Value.isJson_nil
        · simp only [Option.getD_some, hnull] at hdata
          cases hdata
          exact h

namespace Value

theorem IsJson.items {items : List Value} (h : (Value.list items).IsJson) :
    ∀ v ∈ items, v.IsJson := by
  cases h with
  | list _ h => exact h

theorem IsJson.entries {entries : List (Value × Value)} (h : (Value.map entries).IsJson) :
    ∀ e ∈ entries, (∃ k, e.1 = .text k) ∧ e.2.IsJson := by
  cases h with
  | map _ hkeys h => exact fun e he => ⟨hkeys e he, h e he⟩

theorem mem_of_lookup? {key : String} {entries : List (Value × Value)} {v : Value}
    (h : lookup? key entries = some v) : (.text key, v) ∈ entries := by
  induction entries with
  | nil => cases h
  | cons e rest ih =>
    obtain ⟨k, w⟩ := e
    cases k with
    | text k =>
      simp only [lookup?] at h
      split at h
      · next hk =>
        cases h
        rw [hk]
        exact List.mem_cons_self
      · exact List.mem_cons_of_mem _ (ih h)
    | _ => exact List.mem_cons_of_mem _ (ih h)

theorem IsJson.lookup {entries : List (Value × Value)} (h : (Value.map entries).IsJson)
    (key : String) : ((lookup? key entries).getD .null).IsJson := by
  cases hv : lookup? key entries with
  | none => exact .null
  | some v => exact (h.entries _ (mem_of_lookup? hv)).2

theorem IsJson.field {v w : Value} {key : String} (h : v.IsJson) (hw : v.field key = .ok w) :
    w.IsJson := by
  cases v with
  | map entries =>
    cases hw
    exact h.lookup key
  | _ => cases hw

theorem IsJson.orElse {v w : Value} (hv : v.IsJson) (hw : w.IsJson) : (v.orElse w).IsJson := by
  rw [Value.orElse]
  split
  · exact hv
  · exact hw

theorem isJson_record {fields : List (String × Value)} (h : ∀ f ∈ fields, f.2.IsJson) :
    (record fields).IsJson := by
  refine .map _ (fun e he => ?_) (fun e he => ?_)
  · obtain ⟨f, -, rfl⟩ := List.mem_map.mp he
    exact ⟨f.1, rfl⟩
  · obtain ⟨f, hf, rfl⟩ := List.mem_map.mp he
    exact h f hf

/-- Of the values in JSON each counts as some whole number. -/
theorem IsJson.toIntOr {v : Value} (h : v.IsJson) (default : Int) :
    ∃ n, v.toIntOr default = .ok n := by
  cases h with
  | bool b => exact ⟨default, rfl⟩
  | int n => exact ⟨n, rfl⟩
  | real x hx =>
    have hinfinite : x.isInfinite = false := by
      rw [Double.isFinite, bne_iff_ne] at hx
      simp [Double.isInfinite, hx]
    have hnan : x.isNaN = false := by
      rw [Double.isFinite, bne_iff_ne] at hx
      simp [Double.isNaN, hx]
    simp [Value.toIntOr, Value.toInt, hinfinite, hnan]
  | text s =>
    simp only [Value.toIntOr, Value.toInt]
    cases Number.parseInt? s.toList with
    | none => exact ⟨default, rfl⟩
    | some n => exact ⟨n, rfl⟩
  | null | list _ _ | map _ _ _ => exact ⟨default, rfl⟩

end Value

/-! ## Power levels -/

namespace PowerLevels

theorem levelsOf_ok (default : Int) {entries : List (Value × Value)}
    (h : ∀ e ∈ entries, e.2.IsJson) : ∃ levels, levelsOf default entries = .ok levels := by
  induction entries with
  | nil => exact ⟨[], rfl⟩
  | cons e rest ih =>
    obtain ⟨k, v⟩ := e
    have hrest := ih fun e he => h e (List.mem_cons_of_mem _ he)
    cases k with
    | text k =>
      exact ok_bind ((h _ List.mem_cons_self).toIntOr default) fun _ =>
        ok_bind hrest fun _ => ⟨_, rfl⟩
    | _ => exact hrest

theorem levelsOfValue_ok (default : Int) {v : Value} (h : v.IsJson) :
    ∃ levels, levelsOfValue default v = .ok levels := by
  cases v with
  | map entries => exact levelsOf_ok default fun e he => (h.entries e he).2
  | _ => exact ⟨[], rfl⟩

theorem ofContent_ok {entries : List (Value × Value)} (h : (Value.map entries).IsJson) :
    ∃ levels, ofContent (.map entries) = .ok levels := by
  have hlevel (key : String) (n : Int) :
      ∃ m, (Value.map entries).field key >>= Value.toIntOr n = .ok m := (h.lookup key).toIntOr n
  have hlevels (key : String) (n : Int) :
      ∃ ms, (Value.map entries).field key >>= levelsOfValue n = .ok ms :=
    levelsOfValue_ok n (h.lookup key)
  exact ok_bind (hlevels _ _) fun _ => ok_bind (hlevels _ _) fun _ => ok_bind (hlevel _ _) fun _ =>
    ok_bind (hlevel _ _) fun _ => ok_bind (hlevel _ _) fun _ => ok_bind (hlevel _ _) fun _ =>
    ok_bind (hlevel _ _) fun _ => ok_bind (hlevel _ _) fun _ => ok_bind (hlevel _ _) fun _ =>
    ⟨_, rfl⟩

theorem isJson_levelMap (levels : List (String × Int)) : (levelMap levels).IsJson := by
  apply Value.isJson_record
  intro f hf
  obtain ⟨level, -, rfl⟩ := List.mem_map.mp hf
  exact .int level.2

/-- Levels that were read can be set. -/
theorem finish_draft_ok (l : PowerLevels) : ∃ levels, l.draft.finish = .ok levels := by
  refine ofContent_ok (Value.isJson_record fun f hf => ?_)
  simp only [draft, List.mem_cons, List.not_mem_nil, or_false] at hf
  rcases hf with rfl | rfl | rfl | rfl | rfl | rfl | rfl | rfl | rfl
  · exact isJson_levelMap l.users
  · exact .int _
  · exact isJson_levelMap l.events
  all_goals exact .int _

end PowerLevels

/-! ## Events -/

/-- An event with a room, a state key if any, and a body of an answer as its content. -/
structure Event.Absorbable (e : Event) : Prop where
  room : ∃ r, e.room = .text r
  stateKey : e.stateKey = .null ∨ ∃ k, e.stateKey = .text k
  content : ∃ entries, e.content = .map entries ∧ (Value.map entries).IsJson

namespace Event

/-- What is checked of an event, in the order in which it is checked. -/
theorem validate_eq (e : Event) :
    e.validate =
      if isNonEmptyText e.room then
        if isNonEmptyText e.type then
          if e.content.isMap then
            if e.stateKey.isNull || e.stateKey.isText then .ok () else .error .eventStateKey
          else .error .eventContent
        else .error .eventType
      else .error .eventRoom := by
  rw [validate]
  cases isNonEmptyText e.room with
  | false => rfl
  | true =>
    cases isNonEmptyText e.type with
    | false => rfl
    | true =>
      cases e.content.isMap with
      | false => rfl
      | true => cases e.stateKey.isNull || e.stateKey.isText <;> rfl

theorem validate_eq_ok_iff {e : Event} :
    e.validate = .ok () ↔ isNonEmptyText e.room = true ∧ isNonEmptyText e.type = true ∧
      e.content.isMap = true ∧ (e.stateKey.isNull || e.stateKey.isText) = true := by
  rw [validate_eq]
  cases isNonEmptyText e.room with
  | false => simp
  | true =>
    cases isNonEmptyText e.type with
    | false => simp
    | true =>
      cases e.content.isMap with
      | false => simp
      | true => cases e.stateKey.isNull || e.stateKey.isText <;> simp

theorem of_validate {e : Event} (h : e.validate = .ok ()) :
    (∃ r, e.room = .text r) ∧ (∃ t, e.type = .text t) ∧
      (e.stateKey = .null ∨ ∃ k, e.stateKey = .text k) ∧ ∃ entries, e.content = .map entries := by
  obtain ⟨hroom, htype, hcontent, hkey⟩ := validate_eq_ok_iff.mp h
  have htext {v : Value} (hv : isNonEmptyText v = true) : ∃ s, v = .text s := by
    cases v with
    | text s => exact ⟨s, rfl⟩
    | _ => cases hv
  refine ⟨htext hroom, htext htype, ?_, ?_⟩
  · cases hk : e.stateKey with
    | null => exact .inl rfl
    | text k => exact .inr ⟨k, rfl⟩
    | _ => rw [hk] at hkey; cases hkey
  · cases hc : e.content with
    | map entries => exact ⟨entries, rfl⟩
    | _ => rw [hc] at hcontent; cases hcontent

def taken (entries : List (Value × Value)) (fallback : Value) : Event where
  room := ((Value.lookup? "room_id" entries).getD .null).orElse (fallback.orElse (.text ""))
  type := ((Value.lookup? "type" entries).getD .null).orElse (.text "")
  sender := ((Value.lookup? "sender" entries).getD .null).orElse (.text "")
  id := ((Value.lookup? "event_id" entries).getD .null).orElse (.text "")
  stateKey := (Value.lookup? "state_key" entries).getD .null
  content :=
    if ((Value.lookup? "content" entries).getD .null).isNull then .map []
    else (Value.lookup? "content" entries).getD .null
  timestamp :=
    if ((Value.lookup? "origin_server_ts" entries).getD .null).wholeNumber?.isSome
    then (Value.lookup? "origin_server_ts" entries).getD .null else .int 0

/-- A map is taken for an event, which is checked. -/
theorem read_map {entries : List (Value × Value)} {fallback : Value} :
    read (.map entries) fallback =
      (taken entries fallback).validate.map fun _ => taken entries fallback := rfl

theorem of_read {raw room : Value} {e : Event} (h : read raw room = .ok e) :
    e.validate = .ok () ∧ ∃ entries, raw = .map entries ∧ e = taken entries room := by
  cases raw with
  | map entries =>
    rw [read_map] at h
    cases hvalid : (taken entries room).validate with
    | error f =>
      rw [hvalid] at h
      cases h
    | ok _ =>
      rw [hvalid] at h
      cases h
      exact ⟨hvalid, entries, rfl, rfl⟩
  | _ => cases h

theorem absorbable_of_read {raw room : Value} {e : Event} (hraw : raw.IsJson)
    (h : read raw room = .ok e) : e.Absorbable := by
  obtain ⟨hvalid, entries, rfl, rfl⟩ := of_read h
  obtain ⟨hroom, -, hkey, content, hcontent⟩ := of_validate hvalid
  refine ⟨hroom, hkey, content, hcontent, ?_⟩
  rw [← hcontent, taken]
  dsimp only
  split
  · exact Value.isJson_nil
  · exact hraw.lookup "content"

end Event

namespace Bridge

theorem readEvents_cons {room raw : Value} {raws : List Value} {events : List Event} :
    readEvents room (raw :: raws) = .ok events ↔ ∃ e rest, Event.read raw room = .ok e ∧
      readEvents room raws = .ok rest ∧ events = e :: rest := by
  rw [readEvents, List.mapM_cons]
  constructor
  · intro h
    obtain ⟨e, he, h⟩ := bind_eq_ok h
    obtain ⟨rest, hrest, h⟩ := bind_eq_ok h
    cases h
    exact ⟨e, rest, he, hrest, rfl⟩
  · rintro ⟨e, rest, he, hrest, rfl⟩
    rw [he]
    change (readEvents room raws >>= fun rest => .ok (e :: rest)) = _
    rw [hrest]
    rfl

theorem mem_readEvents {room : Value} {raws : List Value} {events : List Event} {e : Event}
    (h : readEvents room raws = .ok events) (he : e ∈ events) :
    ∃ raw ∈ raws, Event.read raw room = .ok e := by
  induction raws generalizing events with
  | nil =>
    cases h
    cases he
  | cons raw raws ih =>
    obtain ⟨first, rest, hread, hrest, rfl⟩ := readEvents_cons.mp h
    rcases List.mem_cons.mp he with rfl | he
    · exact ⟨raw, List.mem_cons_self, hread⟩
    · obtain ⟨raw', hraw', hread'⟩ := ih hrest he
      exact ⟨raw', List.mem_cons_of_mem raw hraw', hread'⟩

theorem absorbable_of_readEvents {room : Value} {raws : List Value} {events : List Event}
    (hraws : ∀ raw ∈ raws, raw.IsJson) (h : readEvents room raws = .ok events) :
    ∀ e ∈ events, e.Absorbable := by
  intro e he
  obtain ⟨raw, hraw, hread⟩ := mem_readEvents h he
  exact Event.absorbable_of_read (hraws raw hraw) hread

/-- Filing an event leaves no other events in the state than that one and those before. -/
theorem mem_fileEvent {state : RoomState} {e event : Event}
    (h : event ∈ (fileEvent state e).events) : event = e ∨ event ∈ state.events := by
  unfold fileEvent at h
  split at h
  · next type key _ _ =>
    obtain ⟨⟨type', byKey⟩, hbyKey, hevent⟩ := List.mem_flatMap.mp h
    obtain ⟨⟨key', event'⟩, hentry, rfl⟩ := List.mem_map.mp hevent
    rcases Table.mem_put hbyKey with rfl | hbyKey
    · rcases Table.mem_put hentry with rfl | hentry
      · exact .inl rfl
      · right
        cases hget : Table.get? type state with
        | none =>
          rw [hget] at hentry
          cases hentry
        | some old =>
          rw [hget] at hentry
          have hold := Table.mem_of_get? hget
          exact List.mem_flatMap.mpr ⟨(type, old), hold, List.mem_map_of_mem hentry⟩
    · exact .inr (List.mem_flatMap.mpr ⟨(type', byKey), hbyKey, List.mem_map_of_mem hentry⟩)
  · exact .inr h

theorem mem_fileEvents {events : List Event} {state : RoomState} {event : Event}
    (h : event ∈ (events.foldl fileEvent state).events) :
    event ∈ events ∨ event ∈ state.events := by
  induction events generalizing state with
  | nil => exact .inr h
  | cons e events ih =>
    rcases ih h with h | h
    · exact .inl (List.mem_cons_of_mem _ h)
    · rcases mem_fileEvent h with rfl | h
      · exact .inl List.mem_cons_self
      · exact .inr h

theorem isJson_listed {data : Value} (h : data.IsJson) : ∀ v ∈ listed data, v.IsJson := by
  cases data with
  | list items => exact h.items
  | _ => exact fun _ he => absurd he List.not_mem_nil

theorem absorbable_of_stateOf {room data : Value} {state : RoomState} (hdata : data.IsJson)
    (h : stateOf room data = .ok state) : ∀ e ∈ state.events, e.Absorbable := by
  obtain ⟨events, hread, rfl⟩ := map_eq_ok h
  intro e he
  rcases mem_fileEvents he with he | he
  · exact absorbable_of_readEvents (isJson_listed hdata) hread e he
  · cases he

theorem isJson_elements {v : Value} {items : List Value} (hv : v.IsJson)
    (h : elements v = .ok items) : ∀ item ∈ items, item.IsJson := by
  cases v with
  | list _ =>
    cases h
    exact hv.items
  | map entries =>
    cases h
    intro item hitem
    obtain ⟨e, he, rfl⟩ := List.mem_map.mp hitem
    obtain ⟨k, hk⟩ := (hv.entries e he).1
    rw [hk]
    exact .text k
  | text s =>
    cases h
    intro item hitem
    obtain ⟨c, -, rfl⟩ := List.mem_map.mp hitem
    exact .text _
  | bytes bs => cases hv
  | _ => cases h

theorem absorbable_of_membersOf {room data : Value} {events : List Event} (hdata : data.IsJson)
    (h : membersOf room data = .ok events) : ∀ e ∈ events, e.Absorbable := by
  obtain ⟨chunk, hchunk, h⟩ := bind_eq_ok h
  obtain ⟨items, hitems, h⟩ := bind_eq_ok h
  have hjson : (chunk.orElse (.list [])).IsJson :=
    (hdata.field hchunk).orElse (.list [] fun _ hv => absurd hv List.not_mem_nil)
  exact absorbable_of_readEvents (isJson_elements hjson hitems) h

/-- The users that an answer lists as joined are given by texts. -/
theorem text_of_joinedOf {data : Value} {joined : List (Value × Value)} (hdata : data.IsJson)
    (h : joinedOf data = .ok joined) : ∀ e ∈ joined, ∃ user, e.1 = .text user := by
  obtain ⟨v, hfield, rfl⟩ := map_eq_ok h
  have hv := hdata.field hfield
  cases v with
  | map entries => exact fun e he => (hv.entries e he).1
  | _ => exact fun _ he => absurd he List.not_mem_nil

end Bridge

/-! ## Taking events in -/

namespace Store

theorem setMember_ok (room : String) {user : Value} {u : Key} (huser : Key.ofValue? user = some u)
    (record : Member) (s : Store) :
    (setMember (.text room) user record).outcome s =
      (.ok (), { s with members := enter (.text room) u record s.members }) := by
  rw [setMember, Value.toKey_text, Attempt.outcome_bind, Attempt.outcome_ofResult,
    Attempt.follow_ok, userKey, huser]
  rfl

theorem observeMember_ok {e : Event} (h : e.Absorbable) (hkey : e.stateKey ≠ .null) (s : Store) :
    ∃ m s', (observeMember e).outcome s = (.ok m, s') := by
  obtain ⟨⟨r, hroom⟩, hkeys, entries, hcontent, -⟩ := h
  obtain ⟨k, hk⟩ := hkeys.resolve_left hkey
  rw [observeMember, hcontent, Value.field_map, Attempt.outcome_bind, Attempt.outcome_ofResult,
    Attempt.follow_ok]
  split
  · have hset (m : Member) := setMember_ok r (Key.ofValue?_text k) m s
    rw [hroom, hk, Attempt.outcome_bind, Attempt.outcome_ofResult]
    change ∃ m s', (Attempt.follow _ (.ok _, s)) = (.ok m, s')
    rw [Attempt.follow_ok, Attempt.outcome_bind, hset]
    exact ⟨_, _, rfl⟩
  · exact ⟨_, _, rfl⟩

/-- Levels that were read are kept as they are when they are finished. -/
theorem setPowerLevels_ok {levels finished : PowerLevels} (h : levels.draft.finish = .ok finished)
    (room : String) (s : Store) :
    (setPowerLevels (.text room) levels.draft.toValue).outcome s =
      (.ok (),
        { s with powerLevels := Table.put (.text room) (.levels finished) s.powerLevels }) := by
  have hrecord : PowerRecord.ofValue levels.draft.toValue = .ok (.levels finished) := by
    change levels.draft.finish.map PowerRecord.levels = _
    rw [h]
    rfl
  rw [setPowerLevels, hrecord, Value.toKey_text]
  rfl

theorem observeLevels_ok {e : Event} (h : e.Absorbable) (s : Store) :
    ∃ s', (observeLevels e).outcome s = (.ok (), s') := by
  obtain ⟨⟨r, hroom⟩, -, entries, hcontent, hjson⟩ := h
  obtain ⟨levels, hlevels⟩ := PowerLevels.ofContent_ok hjson
  obtain ⟨finished, hfinished⟩ := levels.finish_draft_ok
  rw [observeLevels, hcontent, hlevels, Attempt.outcome_bind, Attempt.outcome_ofResult,
    Attempt.follow_ok, hroom]
  exact ⟨_, setPowerLevels_ok hfinished r s⟩

/-- Nothing keeps an event that was read from being taken in. -/
theorem observe_ok {e : Event} (h : e.Absorbable) (s : Store) :
    ∃ m s', (observe e).outcome s = (.ok m, s') := by
  rw [observe]
  split
  · exact ⟨none, s, rfl⟩
  · next hkey =>
    split
    · exact observeMember_ok h (fun hnull => hkey (by rw [hnull]; rfl)) s
    · split
      · obtain ⟨s', hs'⟩ := observeLevels_ok h s
        rw [Attempt.outcome_bind, hs']
        exact ⟨none, s', rfl⟩
      · exact ⟨none, s, rfl⟩

/-- The store after events were taken in one by one, up to the first one that cannot be. -/
def absorbed : List Event → Store → Store
  | [], s => s
  | e :: events, s =>
    match (observe e).outcome s with
    | (.ok _, s') => absorbed events s'
    | (.error _, s') => s'

end Store

namespace Bridge

/-- What an event does to the store is the same whether it is noted or not. -/
theorem outcome_observe {e : Event} {b : Bridge} {r : Except Failure (Option Value)} {s : Store}
    (h : (Store.observe e).outcome b.store = (r, s)) :
    ∃ c, (observe e).outcome b = (r.map fun _ => (), c) ∧ c.store = s := by
  rw [observe, Attempt.outcome_bind, outcome_onStore, h]
  cases r with
  | error f => exact ⟨_, rfl, rfl⟩
  | ok unknown => cases unknown <;> exact ⟨_, rfl, rfl⟩

theorem observe_ok {e : Event} (h : e.Absorbable) (b : Bridge) :
    ∃ b', (observe e).outcome b = (.ok (), b') := by
  obtain ⟨m, s, hs⟩ := Store.observe_ok h b.store
  obtain ⟨c, hc, -⟩ := outcome_observe hs
  exact ⟨c, hc⟩

theorem outcome_absorb_cons (e : Event) (events : List Event) (b : Bridge) :
    (((e :: events).map Except.ok).forM fun r => Attempt.ofResult r >>= observe).outcome b =
      Attempt.follow (fun _ => (events.map Except.ok).forM fun r => Attempt.ofResult r >>= observe)
        ((observe e).outcome b) := by
  change ((Attempt.ofResult (.ok e) >>= observe) >>= fun _ =>
    (events.map Except.ok).forM fun r => Attempt.ofResult r >>= observe).outcome b = _
  rw [Attempt.outcome_bind, Attempt.outcome_bind, Attempt.outcome_ofResult, Attempt.follow_ok]

theorem store_absorbEvents (events : List Event) (b : Bridge) :
    ((absorbEvents events).outcome b).2.store = b.store.absorbed events := by
  have heach (b : Bridge) : (((events.map Except.ok).forM fun r =>
      Attempt.ofResult r >>= observe).outcome b).2.store = b.store.absorbed events := by
    induction events generalizing b with
    | nil => rfl
    | cons e events ih =>
      rcases hstore : (Store.observe e).outcome b.store with ⟨r, s⟩
      obtain ⟨c, hout, rfl⟩ := outcome_observe hstore
      rw [outcome_absorb_cons, hout, Store.absorbed, hstore]
      cases r with
      | error f => rfl
      | ok m => exact ih c
  rw [absorbEvents, absorb, Attempt.state_return]
  exact heach b

theorem absorbEvents_ok {events : List Event} (h : ∀ e ∈ events, e.Absorbable) (b : Bridge) :
    ((absorbEvents events).outcome b).1 = .ok (events.length : Int) := by
  have heach (b : Bridge) : (((events.map Except.ok).forM fun r =>
      Attempt.ofResult r >>= observe).outcome b).1 = .ok () := by
    induction events generalizing b with
    | nil => rfl
    | cons e events ih =>
      obtain ⟨b', hb'⟩ := observe_ok (h e List.mem_cons_self) b
      rw [outcome_absorb_cons, hb']
      exact ih (fun e' he' => h e' (List.mem_cons_of_mem e he')) b'
  have hall := heach b
  rw [absorbEvents, absorb, Attempt.outcome_bind]
  rcases hout : ((events.map Except.ok).forM fun r => Attempt.ofResult r >>= observe).outcome b
    with ⟨r, c⟩
  rw [hout] at hall
  subst hall
  rw [Attempt.follow_ok, List.length_map]
  rfl

end Bridge

end VirtualUsers
