import VirtualUsers.Proofs.Clones
import VirtualUsers.Proofs.InfiniteLevels
/-!
# States that the homeserver took

A state that was sent is taken into the store as a copy. Where no copy can be made, or the event has
no room or no type, the store is left alone, and in any case the id is returned that the homeserver
gave. There is one exception: power levels with an infinite number for a level overflow when their
copy is taken in, although the homeserver has taken the state.
-/

namespace VirtualUsers

namespace Cbor

open Value (keptEntries)

/-- The value is put together from JSON, byte strings and foreign objects, of any size and nested as
deep as one likes. -/
inductive Composed : Value → Prop
  | null : Composed .null
  | bool (b : Bool) : Composed (.bool b)
  | int (n : Int) : Composed (.int n)
  | real (x : Double) : Composed (.real x)
  | text (s : String) : Composed (.text s)
  | bytes (bs : List UInt8) : Composed (.bytes bs)
  | foreign : Composed .foreign
  | list (items : List Value) (hitems : ∀ v ∈ items, Composed v) : Composed (.list items)
  | map (fields : List (String × Value)) (hdistinct : (fields.map (·.1)).Nodup)
      (hvalues : ∀ f ∈ fields, Composed f.2) : Composed (.record fields)

/-- Whatever is read from the payload of the value, if it has one, is the value. -/
def Exact (v : Value) : Prop :=
  ∀ bs, encode? v = some bs → ∀ depth rest w rest', item depth (bs ++ rest) = some (w, rest') →
    w = v.kept

variable {v : Value} {bs : List UInt8}

/-- What can be read again at any depth is not read as anything else. -/
theorem exact_of_returns (h : ∀ bs, encode? v = some bs → ∀ depth, Returns depth v) : Exact v := by
  intro bs hbs depth rest w rest' hread
  cases depth with
  | zero => cases hread
  | succ depth =>
    obtain ⟨bs', hbs', hitem⟩ := h bs hbs depth
    obtain rfl : bs' = bs := Option.some.inj (hbs'.symm.trans hbs)
    rw [hitem] at hread
    cases hread
    rfl

theorem short_of_headed? {major n : Nat} {inner : List UInt8}
    (h : headed? major n inner = some bs) : Short n := by
  rw [headed?] at h
  split at h
  · next hn => exact hn
  · cases h

/-- A number that is too large for a head has a payload only if its length has a head. -/
theorem exact_large {n : Int} (hlarge : ¬ Short (magnitude n)) : Exact (.int n) := by
  intro bs hbs depth rest w rest' hread
  obtain ⟨major, tag, hnat⟩ : ∃ major tag, encodeNat? major tag (magnitude n) = some bs := by
    cases n with
    | ofNat n => exact ⟨0, 2, hbs⟩
    | negSucc n => exact ⟨1, 3, hbs⟩
  have hnone : headed? major (magnitude n) [] = none := if_neg hlarge
  rw [encodeNat?, hnone] at hnat
  obtain ⟨inner, hinner, hnat⟩ := Option.bind_eq_some_iff.mp hnat
  have hshort : Short (byteLength (magnitude n)) := by
    have hlength := short_of_headed? hinner
    rwa [length_bigEndian] at hlength
  -- The byte string under the tag is one item deeper, where an item of the last depth has no room.
  obtain _ | _ | depth := depth
  · cases hread
  · rw [item_headed (by decide) hnat] at hread
    cases hread
  · have hreturns : Returns (depth + 1) (.int n) := returns_large hshort
    obtain ⟨bs', hbs', hitem⟩ := hreturns
    obtain rfl : bs' = bs := Option.some.inj (hbs'.symm.trans hbs)
    rw [hitem] at hread
    cases hread
    rfl

theorem exact_int (n : Int) : Exact (.int n) := by
  by_cases h : Short (magnitude n)
  · exact exact_of_returns fun _ _ _ => returns_int h
  · exact exact_large h

theorem exact_text (s : String) : Exact (.text s) :=
  exact_of_returns fun _ hbs _ => returns_text (short_of_headed? hbs)

theorem exact_items {items : List Value} (h : ∀ v ∈ items, Exact v)
    (hbs : encodeItems? items = some bs) {depth : Nat} {rest rest' : List UInt8}
    {copies : List Value}
    (hread : times (item depth) items.length (bs ++ rest) = some (copies, rest')) :
    copies = items.map Value.kept := by
  induction items generalizing bs copies with
  | nil =>
    cases hread
    rfl
  | cons v items ih =>
    obtain ⟨bs₁, bs₂, hfirst, hothers, rfl⟩ := append_payloads hbs
    rw [List.append_assoc] at hread
    obtain ⟨copy, middle, others, hv, hvs, rfl⟩ := times_cons hread
    obtain ⟨rfl, -⟩ := reads_value v hfirst depth _ _ _ hv
    rw [h v List.mem_cons_self bs₁ hfirst depth _ _ _ hv,
      ih (fun w hw => h w (List.mem_cons_of_mem v hw)) hothers hvs, List.map_cons]

theorem exact_entries {fields : List (String × Value)} (h : ∀ f ∈ fields, Exact f.2)
    (hbs : encodeEntries? (fields.map fun (k, v) => (.text k, v)) = some bs) {depth : Nat}
    {rest rest' : List UInt8} {copies : List (Value × Value)}
    (hread : times (entry (item depth)) fields.length (bs ++ rest) = some (copies, rest')) :
    copies = fields.map fun (k, v) => (.text k, v.kept) := by
  induction fields generalizing bs copies with
  | nil =>
    cases hread
    rfl
  | cons f fields ih =>
    obtain ⟨bs₁, bs₂, hfirst, hothers, rfl⟩ := append_payloads hbs
    rw [List.append_assoc] at hread
    obtain ⟨copy, middle, others, hf, hfs, rfl⟩ := times_cons hread
    obtain ⟨rfl, -⟩ := reads_entry _ hfirst depth _ _ _ hf
    obtain ⟨bsk, bsv, hk, hv, rfl⟩ := append_payloads hfirst
    rw [List.append_assoc] at hf
    obtain ⟨between, hreadk, hreadv⟩ := entry_read hf
    obtain ⟨rfl, -⟩ := reads_value _ hk depth _ _ _ hreadk
    have hkey := exact_text f.1 bsk hk depth _ _ _ hreadk
    have hvalue := h f List.mem_cons_self bsv hv depth _ _ _ hreadv
    rw [ih (fun g hg => h g (List.mem_cons_of_mem f hg)) hothers hfs, List.map_cons]
    exact congrArg (· :: _) (Prod.ext hkey hvalue)

/-- What is composed can only be read as it was. -/
theorem Composed.exact (h : Composed v) : Exact v := by
  induction h with
  | null => exact exact_of_returns fun _ _ _ => ⟨_, rfl, fun _ => rfl⟩
  | bool b => exact exact_of_returns fun _ _ _ => by cases b <;> exact ⟨_, rfl, fun _ => rfl⟩
  | int n => exact exact_int n
  | real x => exact exact_of_returns fun _ _ _ => returns_real x
  | text s => exact exact_text s
  | bytes bs => exact exact_of_returns fun _ hbs _ => returns_bytes (short_of_headed? hbs)
  | foreign => exact nofun
  | list items _ ih =>
    intro bs hbs depth rest w rest' hread
    rw [encode?] at hbs
    obtain ⟨inner, hinner, hbs⟩ := Option.bind_eq_some_iff.mp hbs
    cases depth with
    | zero => cases hread
    | succ depth =>
      rw [item_headed (by decide) hbs] at hread
      change (times (item depth) items.length (inner ++ rest) >>= fun p =>
        some (Value.list p.1, p.2)) = _ at hread
      rw [Option.bind_eq_bind, Option.bind_eq_some_iff] at hread
      obtain ⟨⟨copies, rest''⟩, hcopies, hread⟩ := hread
      cases hread
      rw [Value.kept, Value.keptItems_eq, exact_items ih hinner hcopies]
  | map fields hdistinct _ ih =>
    intro bs hbs depth rest w rest' hread
    rw [Value.record, encode?] at hbs
    obtain ⟨inner, hinner, hbs⟩ := Option.bind_eq_some_iff.mp hbs
    cases depth with
    | zero => cases hread
    | succ depth =>
      rw [item_headed (by decide) hbs, List.length_map] at hread
      change (times (entry (item depth)) fields.length (inner ++ rest) >>= fun p =>
        some (Value.ofEntries p.1, p.2)) = _ at hread
      rw [Option.bind_eq_bind, Option.bind_eq_some_iff] at hread
      obtain ⟨⟨copies, rest''⟩, hcopies, hread⟩ := hread
      cases hread
      have hkept : (fields.map fun (k, v) => (k, Value.kept v)).map (fun (k, v) => (.text k, v)) =
          fields.map fun (k, v) => (Value.text k, v.kept) := by
        rw [List.map_map]
        rfl
      rw [exact_entries ih hinner hcopies, Value.kept_record, ← hkept, Value.ofEntries_distinct]
      rw [List.map_map]
      exact hdistinct

end Cbor

/-! ## Content -/

namespace PowerLevels

theorem isInfinite_kept (v : Value) : v.kept.isInfinite = v.isInfinite := by
  cases v with
  | real x =>
    rw [Value.kept_real, Double.kept]
    split
    · next hnan =>
      have hfinite : x.isInfinite = false :=
        Bool.eq_false_iff.mpr fun h => by rw [Double.not_isNaN_of_isInfinite h] at hnan; cases hnan
      exact hfinite.symm
    · rfl
  | _ => rfl

theorem isInfiniteMap_kept (v : Value) : isInfiniteMap v.kept = isInfiniteMap v := by
  cases v with
  | map entries =>
    change (Value.keptEntries entries).any isInfiniteEntry = entries.any isInfiniteEntry
    induction entries with
    | nil => rfl
    | cons e rest ih =>
      obtain ⟨k, v⟩ := e
      have hentry : isInfiniteEntry (k, v.kept) = isInfiniteEntry (k, v) := by
        cases k with
        | text k => exact isInfinite_kept v
        | _ => rfl
      rw [Value.keptEntries, Value.keptEntry, List.any_cons, List.any_cons, ih, hentry]
  | _ => rfl

/-- A copy of content has infinite numbers where the content has them. -/
theorem isInfinite_keptEntries (entries : List (Value × Value)) :
    isInfinite (Value.keptEntries entries) = isInfinite entries := by
  have hfield (key : String) : (Value.lookup? key (Value.keptEntries entries)).getD .null =
      ((Value.lookup? key entries).getD .null).kept := by
    rw [Value.lookup?_kept]
    cases Value.lookup? key entries <;> rfl
  simp only [isInfinite, hfield, isInfinite_kept, isInfiniteMap_kept]

end PowerLevels

namespace Content

open Cbor (Composed)

/-- Content as it is given: a value that is composed, or a record whose fields have the types that
they are to have. -/
inductive Given : Value → Prop
  | composed (v : Value) (h : Composed v) : Given v
  | member (membership : String) (displayname avatarUrl : Option String) :
    Given (.member (.text membership) (optional displayname) (optional avatarUrl))
  | levels (l : PowerLevels) (husers : (l.users.map (·.1)).Nodup)
      (hevents : (l.events.map (·.1)).Nodup) : Given l.draft.toValue

variable {content : Value}

theorem composed_levelMap {levels : List (String × Int)} (h : (levels.map (·.1)).Nodup) :
    Composed (PowerLevels.levelMap levels) := by
  refine .map _ ?_ fun f hf => ?_
  · rw [List.map_map]
    exact h
  · obtain ⟨level, -, rfl⟩ := List.mem_map.mp hf
    exact .int level.2

/-- What is sent of the content is composed. -/
theorem Given.body (h : Given content) : ∃ body, ofRecord content = .ok body ∧ Composed body := by
  cases h with
  | composed v h =>
    refine ⟨content, ?_, h⟩
    cases h <;> rfl
  | member membership displayname avatarUrl =>
    refine ⟨_, rfl, ?_⟩
    rw [toContent_member]
    refine .map _ ?_ fun f hf => ?_
    · cases displayname <;> cases avatarUrl <;> simp [memberTexts]
    · obtain ⟨field, -, rfl⟩ := List.mem_map.mp hf
      exact .text field.2
  | levels l husers hevents =>
    refine ⟨_, toContent_levels l, .map _ (show PowerLevels.keys.Nodup by decide) fun f hf => ?_⟩
    simp only [List.mem_cons, List.not_mem_nil, or_false] at hf
    rcases hf with rfl | rfl | rfl | rfl | rfl | rfl | rfl | rfl | rfl
    · exact composed_levelMap husers
    · exact .int _
    · exact composed_levelMap hevents
    all_goals exact .int _

def HasCopy (content : Value) : Prop :=
  ∃ copy, clone content = .ok copy

/-- The content is for power levels, and where it is to give a level there is an infinite number. -/
def IsInfinite (content : Value) : Prop :=
  ∃ entries, ofRecord content = .ok (.map entries) ∧ PowerLevels.isInfinite entries

/-- A copy is made of a map, and is the map as a payload keeps it. -/
theorem Given.clone_eq (h : Given content) {copy : Value} (hcopy : clone content = .ok copy) :
    ∃ entries, ofRecord content = .ok (.map entries) ∧ copy = .map (Value.keptEntries entries) := by
  obtain ⟨body, hbody, hcomposed⟩ := h.body
  obtain ⟨body', bytes, rest, hbody', hbytes, hread, hmap⟩ := clone_stages hcopy
  obtain rfl : body' = body := Except.ok.inj (hbody'.symm.trans hbody)
  obtain rfl := hcomposed.exact bytes hbytes _ _ _ _ hread
  cases body' with
  | map entries => exact ⟨entries, hbody, rfl⟩
  | _ => cases hmap

/-- Where no copy can be made, that is all that fails. -/
theorem Given.isCopyFailure (h : Given content) {e : Failure} (he : clone content = .error e) :
    Bridge.isCopyFailure e := by
  obtain ⟨body, hbody, -⟩ := h.body
  rw [clone, hbody] at he
  change (Cbor.encode body >>= fun bs => Cbor.decode bs >>= fun copy =>
    if copy.isMap then Except.ok copy else .error .contentNotMap) = _ at he
  rw [Cbor.encode] at he
  cases hbs : Cbor.encode? body with
  | none =>
    rw [hbs] at he
    cases he
    rfl
  | some bs =>
    rw [hbs] at he
    change (Cbor.decode bs >>= _) = _ at he
    rw [Cbor.decode] at he
    split at he
    · change (ite _ _ _ : Except Failure Value) = _ at he
      split at he
      · cases he
      · cases he
        rfl
    · cases he
      rfl

end Content

/-! ## States that are taken in -/

namespace Bridge

open Content (Given HasCopy IsInfinite)

variable {i : Intent} {b g : Bridge} {room type key : String} {content : Value}

/-- The content overflows when it is taken in for a room: a copy can be made of it, and it is for
power levels with an infinite number among them. -/
def Overflows (room type : String) (content : Value) : Prop :=
  room ≠ "" ∧ type = EventType.powerLevels ∧ HasCopy content ∧ IsInfinite content

/-- The result of what overflows, and the one of what does not. -/
structure UnlessOverflow (room type : String) (content : Value) (r : Except Failure α) (a : α) :
    Prop where
  overflow : Overflows room type content → r = .error .overflow
  taken : ¬ Overflows room type content → r = .ok a

theorem UnlessOverflow.map {r : Except Failure α} {a : α} (h : UnlessOverflow room type content r a)
    (f : α → β) : UnlessOverflow room type content (r.map f) (f a) := by
  refine ⟨fun hoverflows => ?_, fun hoverflows => ?_⟩
  · rw [h.overflow hoverflows]
    rfl
  · rw [h.taken hoverflows]
    rfl

theorem UnlessOverflow.of_ok {a : α} (h : ¬ Overflows room type content) :
    UnlessOverflow room type content (.ok a) a :=
  ⟨fun hoverflows => absurd hoverflows h, fun _ => rfl⟩

/-- Without a room or a type there is no event. -/
theorem validate_sentEvent_empty (h : room = "" ∨ type = "") (now : Int)
    (key sender content id : Value) :
    ∃ f, (sentEvent now (.text room) (.text type) key sender content id).validate = .error f := by
  rcases h with rfl | rfl
  · exact ⟨.eventRoom, rfl⟩
  · by_cases hroom : Event.isNonEmptyText (.text room)
    · refine ⟨.eventType, ?_⟩
      simp only [sentEvent, Event.validate, hroom]
      rfl
    · refine ⟨.eventRoom, ?_⟩
      simp only [sentEvent, Event.validate, hroom]
      rfl

/-- What the copy overflows with is in the content. -/
theorem isInfinite_sentEvent (type : String) {entries : List (Value × Value)} (hroom : room ≠ "")
    (hbody : Content.ofRecord content = .ok (.map entries)) (hcopy : HasCopy content) (now : Int)
    (key : String) (sender id : Value) :
    (sentEvent now (.text room) (.text type) (.text key) sender (.map (Value.keptEntries entries))
      id).isInfinite = true ↔ Overflows room type content := by
  change (type == EventType.powerLevels && PowerLevels.isInfinite (Value.keptEntries entries)) =
    true ↔ _
  rw [PowerLevels.isInfinite_keptEntries, Bool.and_eq_true, beq_iff_eq]
  constructor
  · rintro ⟨htype, hinfinite⟩
    exact ⟨hroom, htype, hcopy, entries, hbody, hinfinite⟩
  · rintro ⟨-, htype, -, entries', hbody', hinfinite⟩
    obtain rfl : entries' = entries := by
      have hsame := hbody'.symm.trans hbody
      cases hsame
      rfl
    exact ⟨htype, hinfinite⟩

/-- What is given is taken in or left out, unless it overflows. What is left out, and what
overflows, leaves the store alone. -/
theorem observeSent_unlessOverflow (room type key : String) (h : Given content) (sender id : Value)
    (b : Bridge) :
    ∃ r c, (observeSent (.text room) (.text type) (.text key) content sender id).outcome b =
        (r, c) ∧ UnlessOverflow room type content r () ∧
      (¬ HasCopy content ∨ room = "" ∨ type = "" ∨ Overflows room type content →
        c.store = b.store) := by
  unfold observeSent
  cases hclone : Content.clone content with
  | error e =>
    have hcopy : ¬ HasCopy content := by
      rintro ⟨copy, hcopy⟩
      rw [hclone] at hcopy
      cases hcopy
    dsimp only
    rw [if_pos (h.isCopyFailure hclone)]
    exact ⟨_, _, rfl, .of_ok fun hoverflows => hcopy hoverflows.2.2.1, fun _ => rfl⟩
  | ok copy =>
    obtain ⟨entries, hbody, rfl⟩ := h.clone_eq hclone
    dsimp only
    rw [Attempt.outcome_bind, Attempt.outcome_get, Attempt.follow_ok]
    by_cases hempty : room = "" ∨ type = ""
    · obtain ⟨f, hf⟩ := validate_sentEvent_empty hempty b.now (.text key) sender
        (.map (Value.keptEntries entries)) id
      rw [hf]
      refine ⟨_, _, rfl, .of_ok fun hoverflows => ?_, fun _ => rfl⟩
      obtain ⟨hroom, rfl, -⟩ := hoverflows
      exact hempty.elim hroom (by decide)
    · obtain ⟨hroom, htype⟩ := not_or.mp hempty
      have hvalid := validate_sentEvent hroom htype b.now key sender id
        (Value.keptEntries entries)
      have hiff := isInfinite_sentEvent type hroom hbody ⟨_, hclone⟩ b.now key sender id
      rw [hvalid]
      dsimp only
      obtain ⟨hresult, hstate⟩ := Store.observe_overflowing hvalid b.store
      rcases hout : (Store.observe (sentEvent b.now (.text room) (.text type) (.text key) sender
        (.map (Value.keptEntries entries)) id)).outcome b.store with ⟨r, s⟩
      obtain ⟨c, hobserved, hstore⟩ := outcome_observe hout
      rw [hout] at hresult hstate
      refine ⟨_, c, hobserved, ⟨fun hoverflows => ?_, fun hoverflows => ?_⟩, fun hleft => ?_⟩
      · have hr := hresult
        rw [hiff.mpr hoverflows] at hr
        have hr : r = .error .overflow := hr
        rw [hr]
        rfl
      · have hfinite := Bool.eq_false_iff.mpr (mt hiff.mp hoverflows)
        rw [hfinite] at hresult
        obtain ⟨unknown, hr⟩ : ∃ unknown, r = .ok unknown := hresult
        rw [hr]
        rfl
      · rw [hstore]
        refine hstate (hiff.mpr ?_)
        rcases hleft with hcopy | hroom' | htype' | hoverflows
        · exact absurd ⟨_, hclone⟩ hcopy
        · exact absurd hroom' hroom
        · exact absurd htype' htype
        · exact hoverflows

/-- To send a state that the homeserver took gives the id of its event, or it overflows. -/
theorem sendStateEvent_unlessOverflow {params : List (String × Value)} {body : List (Value × Value)}
    (type key : String) (timestamp : Value) (h : Given content)
    (htime : timeParams timestamp = .ok params)
    (hgate : (ensureJoined i (.text room) false none).outcome b = (.ok (), g))
    (hanswer : g.upcoming = some (.map body)) :
    ∃ r c x, (sendStateEvent i (.text room) (.text type) (.text key) content timestamp).outcome b =
        (r, c) ∧ c.traffic = g.traffic ++ [x] ∧ x.content = .ok (.map body) ∧
      UnlessOverflow room type content r ((Value.lookup? "event_id" body).getD (.text "")) := by
  obtain ⟨sent, hbody, -⟩ := h.body
  have hmakes : Makes g eventId (writeState i.client (.text room) (.text type) (.text key) content
      timestamp) :=
    .check htime (.check (segment_text room) (.check (segment_text type)
      (.check (segment_text key) (.check hbody ((makes_send g i.client _ _ _ _).reading eventId)))))
  obtain ⟨x, c, hout, hheard⟩ := hmakes
  have hx : x.content = .ok (.map body) := hheard.content_iff.mpr hanswer
  let id := (Value.lookup? "event_id" body).getD (.text "")
  have hid : x.content >>= eventId = .ok id := by rw [hx]; rfl
  rw [hid] at hout
  have hquiet := keeps_observeSent frame_silent (.text room) (.text type) (.text key) content
    (.text i.userId) id { c with tally := c.tally.add .stateEventsSent 1 }
  obtain ⟨r, d, hobserved, hunless, -⟩ := observeSent_unlessOverflow room type key h
    (.text i.userId) id { c with tally := c.tally.add .stateEventsSent 1 }
  rw [hobserved] at hquiet
  refine ⟨r.map fun _ => id, d, x, ?_, hquiet.traffic.trans hheard.traffic, hx, ?_⟩
  · rw [sendStateEvent, Attempt.outcome_bind, hgate, Attempt.follow_ok, Attempt.outcome_bind, hout,
      Attempt.follow_ok, recordState, Attempt.outcome_bind, Attempt.outcome_bind, outcome_count,
      Attempt.follow_ok, hobserved]
    cases r <;> rfl
  · exact hunless.map fun _ => id

/-- Levels that are whole numbers do not overflow, nor does anything that is no map. -/
theorem not_overflows (h : Given content) (hmap : ¬ content.isMap) :
    ¬ Overflows room type content := by
  rintro ⟨-, -, -, entries, hbody, hinfinite⟩
  cases h with
  | composed v h =>
    have hsame : Content.ofRecord content = .ok content := by cases h <;> rfl
    rw [hsame] at hbody
    cases hbody
    exact hmap rfl
  | member membership displayname avatarUrl =>
    cases hbody
    cases displayname <;> cases avatarUrl <;> cases hinfinite
  | levels l husers hevents =>
    have hresult := PowerLevels.ofContent_overflows entries
    have hcontent : l.content = .map entries := Except.ok.inj hbody
    rw [hinfinite, ← hcontent, PowerLevels.ofContent_content] at hresult
    cases (show Except.ok l = .error Failure.overflow from hresult)

/-- What is given for a state is taken in once the homeserver took it, or it is left out and the
store is left alone, and the id of the event is returned. The one exception are power levels with an
infinite number for a level, in a map that a copy can be made of: they overflow, and leave the store
alone too. -/
theorem accepted_state_returned (i : Intent) (room type key : String) (h : Given content)
    (b : Bridge) :
    (∀ sender id, ∃ r c,
      (observeSent (.text room) (.text type) (.text key) content sender id).outcome b = (r, c) ∧
      UnlessOverflow room type content r () ∧
      (¬ HasCopy content ∨ room = "" ∨ type = "" ∨ Overflows room type content →
        c.store = b.store)) ∧
    (∀ timestamp params g body, timeParams timestamp = .ok params →
      (ensureJoined i (.text room) false none).outcome b = (.ok (), g) →
      g.upcoming = some (.map body) →
      let id := (Value.lookup? "event_id" body).getD (.text "")
      UnlessOverflow room type content ((perform i (.sendMassagedStateEvent (.text room)
        (.text type) (.text key) content timestamp)).outcome b).1 (sent id) ∧
      (timestamp = .null → UnlessOverflow room type content ((perform i (.sendStateEvent
        (.text room) (.text type) (.text key) content)).outcome b).1 (sent id))) ∧
    (¬ content.isMap → ¬ Overflows room type content) := by
  refine ⟨fun sender id => observeSent_unlessOverflow room type key h sender id b,
    fun timestamp params g body htime hgate hanswer => ?_, not_overflows h⟩
  obtain ⟨r, c, x, hout, -, -, hunless⟩ :=
    sendStateEvent_unlessOverflow type key timestamp h htime hgate hanswer
  have hsent : UnlessOverflow room type content ((perform i (.sendMassagedStateEvent (.text room)
      (.text type) (.text key) content timestamp)).outcome b).1
      (sent ((Value.lookup? "event_id" body).getD (.text ""))) := by
    change UnlessOverflow room type content ((sent <$> sendStateEvent i (.text room) (.text type)
      (.text key) content timestamp).outcome b).1 _
    rw [Attempt.outcome_map, hout]
    exact hunless.map sent
  refine ⟨hsent, fun hnull => ?_⟩
  subst hnull
  exact hsent

def Example.boundless : Value := .real (.infinity false)

theorem Example.given_record (key : String) {v : Value} (h : Cbor.Composed v) :
    Given (.record [(key, v)]) := by
  refine .composed _ (.map _ (List.pairwise_singleton _ key) fun f hf => ?_)
  cases List.mem_singleton.mp hf
  exact h

/-- A user who is in the room goes on at once. -/
theorem Example.ensureJoined_inside :
    (ensureJoined alice (.text "!r:hs") false none).outcome inside =
      (.ok (), { inside with tally := inside.tally.add .joinCacheHits 1 }) :=
  outcome_ensureJoined_known (knownIn_of_joined rfl rfl)

theorem Example.overflows_boundless :
    Overflows "!r:hs" EventType.powerLevels (.record [("ban", boundless)]) := by
  have hcopy : (Content.clone (.record [("ban", boundless)])).isOk := by decide +kernel
  refine ⟨by decide, rfl, ?_, _, rfl, by decide +kernel⟩
  cases hclone : Content.clone (.record [("ban", boundless)]) with
  | error e => rw [hclone] at hcopy; cases hcopy
  | ok copy => exact ⟨copy, hclone⟩

/-- An object of which no copy can be made is sent, and the level of a ban that overflows. -/
theorem accepted_state_returned_either_way :
    let send (v : Value) := ((perform Example.alice (.sendStateEvent (.text "!r:hs")
      (.text EventType.powerLevels) (.text "") (.record [("ban", v)]))).outcome Example.inside).1
    send .foreign = .ok (sent (.text "$1")) ∧ send Example.boundless = .error .overflow := by
  intro send
  have hsent {v : Value} (hv : Cbor.Composed v) : UnlessOverflow "!r:hs" EventType.powerLevels
      (.record [("ban", v)]) (send v) (sent (.text "$1")) := by
    obtain ⟨-, hsends, -⟩ := accepted_state_returned Example.alice "!r:hs" EventType.powerLevels ""
      (Example.given_record "ban" hv) Example.inside
    exact (hsends .null [] _ [(.text "event_id", .text "$1")] rfl Example.ensureJoined_inside rfl).2
      rfl
  refine ⟨(hsent .foreign).taken fun hoverflows => ?_,
    (hsent (.real _)).overflow Example.overflows_boundless⟩
  obtain ⟨-, -, ⟨copy, hcopy⟩, -⟩ := hoverflows
  cases hcopy

/-- The homeserver took the levels, and sending them fails all the same. -/
theorem infinite_ban_fails :
    ∃ content, Given content ∧
      let sending := (perform Example.alice (.sendStateEvent (.text "!r:hs")
        (.text EventType.powerLevels) (.text "") content)).outcome Example.inside
      (∃ x, sending.2.traffic = [x] ∧ x.content = .ok (sent (.text "$1"))) ∧
      sending.1 = .error .overflow := by
  have hgiven : Given (.record [("ban", Example.boundless)]) :=
    Example.given_record "ban" (.real _)
  have hanswer : Example.inside.upcoming = some (.map [(.text "event_id", .text "$1")]) := rfl
  obtain ⟨r, c, x, hout, htraffic, hx, hunless⟩ := sendStateEvent_unlessOverflow
    EventType.powerLevels "" .null hgiven rfl Example.ensureJoined_inside hanswer
  have hsending : (perform Example.alice (.sendStateEvent (.text "!r:hs")
      (.text EventType.powerLevels) (.text "") (.record [("ban", Example.boundless)]))).outcome
      Example.inside = (r.map sent, c) := by
    change (sent <$> sendStateEvent _ _ _ _ _ _).outcome _ = _
    rw [Attempt.outcome_map, hout]
  refine ⟨_, hgiven, ⟨x, ?_, hx⟩, ?_⟩
  · rw [hsending]
    exact htraffic
  · rw [hsending, hunless.overflow Example.overflows_boundless]
    rfl

end Bridge

end VirtualUsers
