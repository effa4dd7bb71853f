import VirtualUsers.Proofs.Absorption
/-!
# Values that are events

Which values describe an event, why the others are refused, and what the event is. Main statement:
reading takes just the maps with a room, a type, a content if any and a state key if any, names the
first of these that is amiss in any other, and what was read is a valid event that is read again
from the map that it gives.
-/

namespace VirtualUsers.Event

open Value (lookup?)

/-! ## What describes an event -/

section Grammar

variable (entries : List (Value × Value)) (fallback : Value)

/-- What a map has under a key, unless that is empty, or else what is given. -/
def given (key : String) (default : Value) : Value :=
  match lookup? key entries with
  | some v => if v.truthy then v else default
  | none => default

/-- The room that the map names, or else the given one, is a text and not empty. -/
def HasRoom : Prop :=
  ∃ room, room ≠ "" ∧ given entries "room_id" fallback = .text room

def HasType : Prop :=
  ∃ type, type ≠ "" ∧ lookup? "type" entries = some (.text type)

def HasContent : Prop :=
  ∀ v, lookup? "content" entries = some v → v = .null ∨ ∃ content, v = .map content

def HasStateKey : Prop :=
  ∀ v, lookup? "state_key" entries = some v → v = .null ∨ ∃ key, v = .text key

structure IsDescription : Prop where
  room : HasRoom entries fallback
  type : HasType entries
  content : HasContent entries
  stateKey : HasStateKey entries

/-- The event is the one that a map with these entries describes. -/
structure IsDescribed (e : Event) : Prop where
  room : e.room = given entries "room_id" fallback
  type : lookup? "type" entries = some e.type
  sender : e.sender = given entries "sender" (.text "")
  id : e.id = given entries "event_id" (.text "")
  stateKey : e.stateKey = (lookup? "state_key" entries).getD .null
  content : e.content = .map [] ∧ (lookup? "content" entries).getD .null = .null ∨
    lookup? "content" entries = some e.content
  timestamp : e.timestamp = match lookup? "origin_server_ts" entries with
    | some v => if v.wholeNumber?.isSome then v else .int 0
    | none => .int 0

end Grammar

/-- Why a value is refused: it is no map, or what it has is amiss, of which the first counts. -/
inductive Refused (fallback : Value) : Value → Failure → Prop
  | notMap (raw : Value) (h : ∀ entries, raw ≠ .map entries) : Refused fallback raw .eventNotMap
  | room (entries : List (Value × Value)) (h : ¬ HasRoom entries fallback) :
      Refused fallback (.map entries) .eventRoom
  | type (entries : List (Value × Value)) (hroom : HasRoom entries fallback)
      (h : ¬ HasType entries) : Refused fallback (.map entries) .eventType
  | content (entries : List (Value × Value)) (hroom : HasRoom entries fallback)
      (htype : HasType entries) (h : ¬ HasContent entries) :
      Refused fallback (.map entries) .eventContent
  | stateKey (entries : List (Value × Value)) (hroom : HasRoom entries fallback)
      (htype : HasType entries) (hcontent : HasContent entries) (h : ¬ HasStateKey entries) :
      Refused fallback (.map entries) .eventStateKey

/-! ## Texts that are checked -/

theorem isNonEmptyText_iff {v : Value} : isNonEmptyText v = true ↔ ∃ s, s ≠ "" ∧ v = .text s := by
  cases v with
  | text s => simp [isNonEmptyText]
  | _ => simp [isNonEmptyText]

/-- The empty text in the place of what is empty changes nothing for whether there is a text. -/
theorem isNonEmptyText_orElse (v : Value) :
    isNonEmptyText (v.orElse (.text "")) = isNonEmptyText v := by
  cases v with
  | text s => by_cases h : s = "" <;> simp [Value.orElse, Value.truthy, isNonEmptyText, h]
  | _ =>
    rw [Value.orElse]
    split <;> rfl

theorem isNonEmptyText_orElse_orElse (v w : Value) :
    isNonEmptyText (v.orElse (w.orElse (.text ""))) = isNonEmptyText (v.orElse w) := by
  by_cases h : v.truthy
  · simp only [Value.orElse, if_pos h]
  · have hnext (other : Value) : v.orElse other = other := if_neg h
    rw [hnext, hnext, isNonEmptyText_orElse]

theorem orElse_of_isNonEmptyText {v : Value} (h : isNonEmptyText v = true) (default : Value) :
    v.orElse default = v := by
  obtain ⟨s, hs, rfl⟩ := isNonEmptyText_iff.mp h
  exact if_pos (bne_iff_ne.mpr hs)

theorem orElse_orElse_of_isNonEmptyText {v w : Value} (h : isNonEmptyText (v.orElse w) = true) :
    v.orElse (w.orElse (.text "")) = v.orElse w := by
  by_cases hv : v.truthy
  · simp only [Value.orElse, if_pos hv]
  · have hnext (other : Value) : v.orElse other = other := if_neg hv
    rw [hnext] at h
    rw [hnext, hnext, orElse_of_isNonEmptyText h]

/-! ## What is read -/

section Reading

variable {entries : List (Value × Value)} {fallback : Value} {e : Event} {f : Failure}

theorem orElse_eq_given (key : String) (default : Value) :
    ((lookup? key entries).getD .null).orElse default = given entries key default := by
  rw [given]
  cases lookup? key entries <;> rfl

theorem isNonEmptyText_room :
    isNonEmptyText (taken entries fallback).room = true ↔ HasRoom entries fallback := by
  have hgiven : isNonEmptyText (taken entries fallback).room =
      isNonEmptyText (given entries "room_id" fallback) := by
    rw [← orElse_eq_given]
    exact isNonEmptyText_orElse_orElse _ fallback
  rw [hgiven, isNonEmptyText_iff]
  rfl

theorem isNonEmptyText_type :
    isNonEmptyText (taken entries fallback).type = true ↔ HasType entries := by
  rw [taken, isNonEmptyText_orElse, isNonEmptyText_iff, HasType]
  cases lookup? "type" entries with
  | none => simp
  | some v => simp

theorem isMap_content : (taken entries fallback).content.isMap = true ↔ HasContent entries := by
  rw [taken, HasContent]
  cases lookup? "content" entries with
  | none => simp [Value.isNull, Value.isMap]
  | some v => cases v <;> simp [Value.isNull, Value.isMap]

theorem isText_stateKey :
    ((taken entries fallback).stateKey.isNull || (taken entries fallback).stateKey.isText) = true ↔
      HasStateKey entries := by
  rw [taken, HasStateKey]
  cases lookup? "state_key" entries with
  | none => simp [Value.isNull]
  | some v => cases v <;> simp [Value.isNull, Value.isText]

/-- A value that is refused is not taken. -/
theorem read_of_refused {raw : Value} (h : Refused fallback raw f) :
    read raw fallback = .error f := by
  cases h with
  | notMap raw h =>
    cases raw with
    | map entries => exact absurd rfl (h entries)
    | _ => rfl
  | room entries h =>
    rw [read_map, validate_eq, if_neg (mt isNonEmptyText_room.mp h)]
    rfl
  | type entries hroom h =>
    rw [read_map, validate_eq, if_pos (isNonEmptyText_room.mpr hroom),
      if_neg (mt isNonEmptyText_type.mp h)]
    rfl
  | content entries hroom htype h =>
    rw [read_map, validate_eq, if_pos (isNonEmptyText_room.mpr hroom),
      if_pos (isNonEmptyText_type.mpr htype), if_neg (mt isMap_content.mp h)]
    rfl
  | stateKey entries hroom htype hcontent h =>
    rw [read_map, validate_eq, if_pos (isNonEmptyText_room.mpr hroom),
      if_pos (isNonEmptyText_type.mpr htype), if_pos (isMap_content.mpr hcontent),
      if_neg (mt isText_stateKey.mp h)]
    rfl

/-- A map that describes an event is taken. -/
theorem read_of_isDescription (h : IsDescription entries fallback) :
    read (.map entries) fallback = .ok (taken entries fallback) := by
  rw [read_map, validate_eq, if_pos (isNonEmptyText_room.mpr h.room),
    if_pos (isNonEmptyText_type.mpr h.type), if_pos (isMap_content.mpr h.content),
    if_pos (isText_stateKey.mpr h.stateKey)]
  rfl

/-- Every value describes an event or is refused. -/
theorem isDescription_or_refused (raw fallback : Value) :
    (∃ entries, raw = .map entries ∧ IsDescription entries fallback) ∨
      ∃ f, Refused fallback raw f := by
  by_cases hmap : ∃ entries, raw = .map entries
  · obtain ⟨entries, rfl⟩ := hmap
    by_cases hroom : HasRoom entries fallback
    · by_cases htype : HasType entries
      · by_cases hcontent : HasContent entries
        · by_cases hkey : HasStateKey entries
          · exact .inl ⟨entries, rfl, hroom, htype, hcontent, hkey⟩
          · exact .inr ⟨_, .stateKey entries hroom htype hcontent hkey⟩
        · exact .inr ⟨_, .content entries hroom htype hcontent⟩
      · exact .inr ⟨_, .type entries hroom htype⟩
    · exact .inr ⟨_, .room entries hroom⟩
  · exact .inr ⟨_, .notMap raw fun entries h => hmap ⟨entries, h⟩⟩

theorem read_eq_error_iff {raw : Value} :
    read raw fallback = .error f ↔ Refused fallback raw f := by
  refine ⟨fun h => ?_, read_of_refused⟩
  rcases isDescription_or_refused raw fallback with ⟨entries, rfl, hdescribes⟩ | ⟨g, hg⟩
  · rw [read_of_isDescription hdescribes] at h
    cases h
  · rw [read_of_refused hg] at h
    cases h
    exact hg

theorem read_eq_ok_iff {raw : Value} : read raw fallback = .ok e ↔
    ∃ entries, raw = .map entries ∧ IsDescription entries fallback ∧
      e = taken entries fallback := by
  constructor
  · intro h
    rcases isDescription_or_refused raw fallback with ⟨entries, rfl, hdescribes⟩ | ⟨g, hg⟩
    · rw [read_of_isDescription hdescribes] at h
      exact ⟨entries, rfl, hdescribes, (Except.ok.inj h).symm⟩
    · rw [read_of_refused hg] at h
      cases h
  · rintro ⟨entries, rfl, hdescribes, rfl⟩
    exact read_of_isDescription hdescribes

theorem isDescribed_taken (h : IsDescription entries fallback) :
    IsDescribed entries fallback (taken entries fallback) where
  room := by
    have hroom := isNonEmptyText_iff.mpr h.room
    rw [← orElse_eq_given] at hroom ⊢
    exact orElse_orElse_of_isNonEmptyText hroom
  type := by
    obtain ⟨type, htype, hlookup⟩ := h.type
    rw [taken, hlookup]
    exact congrArg some (if_pos (bne_iff_ne.mpr htype)).symm
  sender := orElse_eq_given "sender" (.text "")
  id := orElse_eq_given "event_id" (.text "")
  stateKey := rfl
  content := by
    rw [taken]
    cases hcontent : lookup? "content" entries with
    | none => exact .inl ⟨rfl, rfl⟩
    | some v =>
      rcases h.content v hcontent with rfl | ⟨content, rfl⟩
      · exact .inl ⟨rfl, rfl⟩
      · exact .inr rfl
  timestamp := by
    rw [taken]
    cases lookup? "origin_server_ts" entries <;> rfl

end Reading

/-! ## What is read again -/

def entries (e : Event) : List (Value × Value) :=
  [(.text "room_id", e.room), (.text "type", e.type), (.text "sender", e.sender),
    (.text "event_id", e.id), (.text "state_key", e.stateKey), (.text "content", e.content),
    (.text "origin_server_ts", e.timestamp)]

/-- The event has nothing that reading would replace. -/
structure IsSettled (e : Event) : Prop where
  valid : e.validate = .ok ()
  sender : e.sender.orElse (.text "") = e.sender
  id : e.id.orElse (.text "") = e.id
  timestamp : e.timestamp.wholeNumber?.isSome

theorem orElse_orElse (v : Value) :
    (v.orElse (.text "")).orElse (.text "") = v.orElse (.text "") := by
  by_cases h : v.truthy
  · have hv : v.orElse (.text "") = v := if_pos h
    rw [hv, hv]
  · have hv : v.orElse (.text "") = .text "" := if_neg h
    rw [hv]
    rfl

theorem isSettled_taken {entries : List (Value × Value)} {fallback : Value}
    (h : (taken entries fallback).validate = .ok ()) : (taken entries fallback).IsSettled := by
  refine ⟨h, orElse_orElse _, orElse_orElse _, ?_⟩
  rw [taken]
  dsimp only
  split
  · next hwhole => exact hwhole
  · rfl

/-- A settled event is read from the map that it gives, whichever room is given beside it. -/
theorem read_render {e : Event} (h : e.IsSettled) (other : Value) :
    read e.render other = .ok e := by
  obtain ⟨hroom, htype, -, -⟩ := validate_eq_ok_iff.mp h.valid
  obtain ⟨-, -, -, content, hcontent⟩ := of_validate h.valid
  have hkept : (if e.content.isNull then .map [] else e.content) = e.content := by
    rw [hcontent]
    rfl
  -- Each field is found under its own name, and nothing has to stand in for it.
  have htaken : taken e.entries other = e :=
    calc taken e.entries other
        = ⟨e.room.orElse (other.orElse (.text "")), e.type.orElse (.text ""),
            e.sender.orElse (.text ""), e.id.orElse (.text ""), e.stateKey,
            if e.content.isNull then .map [] else e.content,
            if e.timestamp.wholeNumber?.isSome then e.timestamp else .int 0⟩ := rfl
      _ = ⟨e.room, e.type, e.sender, e.id, e.stateKey, e.content, e.timestamp⟩ := by
        rw [orElse_of_isNonEmptyText hroom, orElse_of_isNonEmptyText htype, h.sender, h.id, hkept,
          if_pos h.timestamp]
      _ = e := rfl
  have hread : read e.render other =
      (taken e.entries other).validate.map fun _ => taken e.entries other := rfl
  rw [hread, htaken, h.valid]
  rfl

/-- Reading takes just the values that describe an event and says what is amiss with the others.
What was read is valid, and it is read again from the map that it gives. -/
theorem read_grammar (raw fallback : Value) :
    ((∃ e, read raw fallback = .ok e) ↔
      ∃ entries, raw = .map entries ∧ IsDescription entries fallback) ∧
    (∀ f, read raw fallback = .error f ↔ Refused fallback raw f) ∧
    (∀ f, Refused fallback raw f → (f.isBadValue = true ↔ f = .eventRoom ∨ f = .eventType)) ∧
    ∀ e, read raw fallback = .ok e →
      (∃ entries, raw = .map entries ∧ IsDescribed entries fallback e) ∧
      e.validate = .ok () ∧ ∀ other, read e.render other = .ok e := by
  refine ⟨⟨?_, ?_⟩, fun f => read_eq_error_iff, fun f hrefused => ?_, fun e hread => ?_⟩
  · rintro ⟨e, hread⟩
    obtain ⟨entries, hraw, hdescribes, -⟩ := read_eq_ok_iff.mp hread
    exact ⟨entries, hraw, hdescribes⟩
  · rintro ⟨entries, hraw, hdescribes⟩
    exact ⟨_, read_eq_ok_iff.mpr ⟨entries, hraw, hdescribes, rfl⟩⟩
  · cases hrefused <;> simp [Failure.isBadValue]
  · obtain ⟨entries, hraw, hdescribes, rfl⟩ := read_eq_ok_iff.mp hread
    have hvalid := (of_read hread).1
    exact ⟨⟨entries, hraw, isDescribed_taken hdescribes⟩, hvalid,
      read_render (isSettled_taken hvalid)⟩

def roomless : Value :=
  .record [("room_id", .int 0), ("type", .text "m.room.member"), ("content", .null)]

theorem read_grammar_roomless :
    (∃ e, read roomless (.text "!r:hs") = .ok e ∧ e.validate = .ok () ∧
      read e.render .null = .ok e) ∧
    Failure.eventRoom.isBadValue = true ∧ read roomless .null = .error .eventRoom := by
  refine ⟨?_, ?_⟩
  · obtain ⟨haccepted, -, -, hread⟩ := read_grammar roomless (.text "!r:hs")
    have hcontent (v : Value) (h : some .null = some v) : v = .null ∨ ∃ content, v = .map content :=
      .inl (Option.some.inj h).symm
    have hkey (v : Value) (h : none = some v) : v = .null ∨ ∃ key, v = .text key := by cases h
    obtain ⟨e, he⟩ := haccepted.mpr ⟨_, rfl, ⟨"!r:hs", by decide, rfl⟩,
      ⟨"m.room.member", by decide, rfl⟩, hcontent, hkey⟩
    obtain ⟨-, hvalid, hagain⟩ := hread e he
    exact ⟨e, he, hvalid, hagain .null⟩
  · obtain ⟨-, hrefused, hkind, -⟩ := read_grammar roomless .null
    have hroom : Refused .null roomless .eventRoom :=
      .room _ fun ⟨room, _, h⟩ => Value.noConfusion h
    exact ⟨(hkind _ hroom).mpr (.inl rfl), (hrefused _).mpr hroom⟩

end VirtualUsers.Event
