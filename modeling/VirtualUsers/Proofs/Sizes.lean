import Mathlib.Data.Set.Card
import VirtualUsers.Proofs.Cells
import VirtualUsers.Proofs.Levels
/-!
# The sizes of a store

A store is counted by the length of its tables, and it is asked through its keys. The two agree as
long as no key comes twice and no room is without members. Main statement: so it is after every run
of operations whose ids are texts, and each count is the number of questions that are answered with
yes.
-/

namespace VirtualUsers

/-! ## Keys -/

namespace Table

variable {κ ι α : Type}

def keys (t : Table κ α) : List κ :=
  t.map (·.1)

@[simp] theorem keys_nil : keys ([] : Table κ α) = [] := rfl

@[simp] theorem keys_cons (k : κ) (a : α) (t : Table κ α) : keys ((k, a) :: t) = k :: keys t := rfl

def flat (t : Table κ (Table ι α)) : Table (κ × ι) α :=
  t.flatMap fun e => e.2.map fun u => ((e.1, u.1), u.2)

theorem mem_flat {k : κ} {i : ι} {a : α} {t : Table κ (Table ι α)} :
    ((k, i), a) ∈ flat t ↔ ∃ us, (k, us) ∈ t ∧ (i, a) ∈ us := by
  constructor
  · intro h
    obtain ⟨⟨l, us⟩, hus, h⟩ := List.mem_flatMap.mp h
    obtain ⟨u, hu, heq⟩ := List.mem_map.mp h
    cases heq
    exact ⟨us, hus, hu⟩
  · rintro ⟨us, hus, hu⟩
    exact List.mem_flatMap.mpr ⟨(k, us), hus, List.mem_map.mpr ⟨(i, a), hu, rfl⟩⟩

theorem map_flat (t : Table κ (Table ι α)) :
    (flat t).map (fun e => (e.1.2, e.2)) = t.flatMap (·.2) := by
  simp [flat, List.map_flatMap, Function.comp_def]

theorem keys_flat (t : Table κ (Table ι α)) :
    keys (flat t) = t.flatMap fun e => (keys e.2).map (e.1, ·) := by
  simp [keys, flat, List.map_flatMap, Function.comp_def]

variable [DecidableEq κ]

theorem keys_put (k : κ) (a : α) (t : Table κ α) :
    keys (put k a t) = if k ∈ keys t then keys t else keys t ++ [k] := by
  induction t with
  | nil => simp [put]
  | cons e t ih =>
    obtain ⟨l, c⟩ := e
    by_cases h : l = k
    · simp [put, h]
    · rw [put, if_neg h, keys_cons, ih, keys_cons]
      by_cases hk : k ∈ keys t
      · simp [hk]
      · simp [hk, Ne.symm h]

theorem mem_keys_iff {k : κ} {t : Table κ α} : k ∈ keys t ↔ ∃ a, get? k t = some a := by
  induction t with
  | nil => simp
  | cons e t ih =>
    obtain ⟨l, c⟩ := e
    by_cases h : l = k
    · simp [get?, h]
    · simp [get?, h, Ne.symm h, ih]

theorem get?_of_mem {k : κ} {a : α} {t : Table κ α} (hkeys : (keys t).Nodup) (h : (k, a) ∈ t) :
    get? k t = some a := by
  induction t with
  | nil => cases h
  | cons e t ih =>
    obtain ⟨l, c⟩ := e
    obtain ⟨hl, hkeys⟩ := List.nodup_cons.mp hkeys
    rcases List.mem_cons.mp h with h | h
    · cases h
      rw [get?, if_pos rfl]
    · have hne : l ≠ k := fun heq => hl (heq ▸ List.mem_map_of_mem (f := (·.1)) h)
      rw [get?, if_neg hne, ih hkeys h]

theorem get?_eq_some_iff {k : κ} {a : α} {t : Table κ α} (hkeys : (keys t).Nodup) :
    get? k t = some a ↔ (k, a) ∈ t :=
  ⟨mem_of_get?, get?_of_mem hkeys⟩

theorem put_ne_nil (k : κ) (a : α) (t : Table κ α) : put k a t ≠ [] := by
  cases t with
  | nil => exact List.cons_ne_nil _ _
  | cons e t =>
    rw [put]
    split <;> exact List.cons_ne_nil _ _

end Table

/-- The keys have names, and none of them comes twice. -/
structure Named {β κ : Type} (name : β → κ) (ks : List κ) : Prop where
  nodup : ks.Nodup
  named : ∀ k ∈ ks, ∃ b, k = name b

namespace Named

variable {β κ : Type} {name : β → κ} {ks : List κ}

theorem nil (name : β → κ) : Named name [] := ⟨.nil, fun _ h => nomatch h⟩

theorem append (h : Named name ks) {b : β} (hb : name b ∉ ks) : Named name (ks ++ [name b]) where
  nodup := List.nodup_append.mpr ⟨h.nodup, List.nodup_singleton _, fun k hk l hl heq =>
    hb (List.mem_singleton.mp hl ▸ heq ▸ hk)⟩
  named k hk := by
    rcases List.mem_append.mp hk with hk | hk
    · exact h.named k hk
    · exact ⟨b, List.mem_singleton.mp hk⟩

theorem put [DecidableEq κ] {α : Type} {t : Table κ α} (h : Named name t.keys) (b : β) (a : α) :
    Named name (Table.put (name b) a t).keys := by
  rw [Table.keys_put]
  split
  · exact h
  · next hb => exact h.append hb

theorem sublist {ks' : List κ} (h : Named name ks) (hks : ks'.Sublist ks) : Named name ks' :=
  ⟨h.nodup.sublist hks, fun k hk => h.named k (hks.subset hk)⟩

/-- There are as many keys as names of keys. -/
theorem length_eq (hname : Function.Injective name) (h : Named name ks) :
    (ks.length : ℕ∞) = {b | name b ∈ ks}.encard := by
  classical
  have hrange : (ks.toFinset : Set κ) ⊆ Set.range name := by
    intro k hk
    obtain ⟨b, rfl⟩ := h.named k (List.mem_toFinset.mp hk)
    exact ⟨b, rfl⟩
  have hset : {b | name b ∈ ks} = Set.preimage name (ks.toFinset : Set κ) := by
    ext b
    simp
  rw [hset, Set.encard_preimage_of_injective_subset_range hname hrange,
    Set.encard_coe_eq_coe_finsetCard, List.toFinset_card_of_nodup h.nodup]

end Named

namespace Named

variable {t : Table Key (Table Key α)}

def pair (p : String × String) : Key × Key :=
  (.text p.1, .text p.2)

theorem pair_injective : Function.Injective pair := by
  rintro ⟨r, u⟩ ⟨r', u'⟩ h
  cases h
  rfl

/-- If rooms are named, and users in each room, then so are users in rooms. -/
theorem flat (hrooms : Named Key.text t.keys) (husers : ∀ e ∈ t, Named Key.text e.2.keys) :
    Named pair (Table.flat t).keys where
  nodup := by
    rw [Table.keys_flat, List.nodup_flatMap]
    refine ⟨fun e he => (husers e he).nodup.map fun _ _ h => (Prod.mk.inj h).2, ?_⟩
    refine (List.pairwise_map.mp hrooms.nodup).imp fun {e e'} hne k hk hk' => ?_
    obtain ⟨u, -, rfl⟩ := List.mem_map.mp hk
    obtain ⟨u', -, heq⟩ := List.mem_map.mp hk'
    exact hne (Prod.mk.inj heq).1.symm
  named k hk := by
    rw [Table.keys_flat] at hk
    obtain ⟨e, he, hk⟩ := List.mem_flatMap.mp hk
    obtain ⟨u, hu, rfl⟩ := List.mem_map.mp hk
    obtain ⟨room, hroom⟩ := hrooms.named e.1 (List.mem_map_of_mem he)
    obtain ⟨user, huser⟩ := (husers e he).named u hu
    exact ⟨(room, user), by rw [hroom, huser, pair]⟩

end Named

namespace Store

/-! ## Tidy stores -/

/-- All keys are texts and come once, every room has a member, and levels are something. -/
structure Tidy (s : Store) : Prop where
  registered : Named Key.text s.registered
  rooms : Named Key.text s.members.keys
  users : ∀ e ∈ s.members, Named Key.text e.2.keys
  inhabited : ∀ e ∈ s.members, e.2 ≠ []
  powerLevels : Named Key.text s.powerLevels.keys
  records : ∀ e ∈ s.powerLevels, e.2.toValue ≠ .null

theorem tidy_empty : Tidy {} where
  registered := .nil _
  rooms := .nil _
  users _ h := nomatch h
  inhabited _ h := nomatch h
  powerLevels := .nil _
  records _ h := nomatch h

/-- The edit is of a cell that texts address, and levels that it sets are something. -/
def Edit.IsNamed : Edit → Prop
  | register id => ∃ user, id = .text user
  | member room user _ | typing room user _ => ∃ p, (room, user) = Named.pair p
  | levels room record => (∃ r, room = .text r) ∧ record.toValue ≠ .null

namespace Tidy

variable {s : Store}

theorem register (h : s.Tidy) (user : String) : (s.register (.text user)).Tidy := by
  rw [Store.register]
  split
  · exact h
  · next hnew =>
    exact { h with registered := h.registered.append (mt List.contains_iff_mem.mpr hnew) }

theorem enter (h : s.Tidy) (room user : String) (record : Member) :
    Tidy { s with members := enter (.text room) (.text user) record s.members } := by
  have hnew : ∀ us, Table.get? (.text room) s.members = some us → Named Key.text us.keys :=
    fun us hus => h.users _ (Table.mem_of_get? hus)
  have hentry : Named Key.text
      (Table.put (.text user) record ((Table.get? (.text room) s.members).getD [])).keys := by
    refine Named.put ?_ user record
    cases hroom : Table.get? (.text room) s.members with
    | none => exact .nil _
    | some us => exact hnew us hroom
  refine { h with rooms := h.rooms.put room _, users := ?_, inhabited := ?_ }
  · rintro ⟨r, us⟩ he
    rcases Table.mem_put he with rfl | he
    · exact hentry
    · exact h.users _ he
  · rintro ⟨r, us⟩ he
    rcases Table.mem_put he with rfl | he
    · exact Table.put_ne_nil _ _ _
    · exact h.inhabited _ he

theorem put (h : s.Tidy) (room : String) {record : PowerRecord} (hrecord : record.toValue ≠ .null) :
    Tidy { s with powerLevels := Table.put (.text room) record s.powerLevels } := by
  refine { h with powerLevels := h.powerLevels.put room record, records := ?_ }
  rintro ⟨r, record'⟩ he
  rcases Table.mem_put he with rfl | he
  · exact hrecord
  · exact h.records _ he

/-- An edit keeps a store tidy. -/
theorem on (h : s.Tidy) {e : Edit} (he : e.IsNamed) : (e.on s).Tidy := by
  cases e with
  | register id =>
    obtain ⟨user, rfl⟩ := he
    exact h.register user
  | member room user record =>
    obtain ⟨⟨r, u⟩, hp⟩ := he
    cases hp
    exact h.enter r u _
  | levels room record =>
    obtain ⟨⟨r, rfl⟩, hrecord⟩ := he
    exact h.put r hrecord
  | typing room user expiry => exact { h with }

theorem edited (h : s.Tidy) {o : Option Edit} (ho : ∀ e ∈ o, e.IsNamed) : (s.edited o).Tidy := by
  cases o with
  | none => exact h
  | some e => exact h.on (ho e rfl)

/-! ## Counting -/

theorem cell?_iff (h : s.Tidy) {room user : Key} {record : Member} :
    cell? room user s.members = some record ↔ ((room, user), record) ∈ s.members.flat := by
  rw [cell?, Option.bind_eq_some_iff, Table.mem_flat]
  refine exists_congr fun us => ?_
  rw [Table.get?_eq_some_iff h.rooms.nodup]
  refine and_congr_right fun hus => ?_
  rw [Table.get?_eq_some_iff (h.users _ hus).nodup]

theorem text_injective : Function.Injective Key.text := fun _ _ => Key.text.inj

/-- The entries that satisfy a condition are as many as the pairs of a room and a user at which one
is found. -/
theorem countP_flat (h : s.Tidy) (p : Member → Bool) :
    ((s.members.flat.countP fun e => p e.2 : Nat) : ℕ∞) = {q : String × String |
      ∃ m, cell? (.text q.1) (.text q.2) s.members = some m ∧ p m = true}.encard := by
  -- The entries that satisfy the condition are counted by the names of their keys.
  have hall : Named Named.pair s.members.flat.keys := .flat h.rooms h.users
  have hnamed : Named Named.pair (Table.keys (s.members.flat.filter fun e => p e.2)) :=
    hall.sublist (List.filter_sublist.map _)
  rw [List.countP_eq_length_filter, ← List.length_map (f := Prod.fst)]
  refine (hnamed.length_eq Named.pair_injective).trans (congrArg Set.encard (Set.ext fun q => ?_))
  constructor
  · intro hq
    obtain ⟨⟨k, m⟩, hm, rfl⟩ := List.mem_map.mp hq
    obtain ⟨hm, hp⟩ := List.mem_filter.mp hm
    exact ⟨m, h.cell?_iff.mpr hm, hp⟩
  · rintro ⟨m, hm, hp⟩
    exact List.mem_map.mpr ⟨(_, m), List.mem_filter.mpr ⟨h.cell?_iff.mp hm, hp⟩, rfl⟩

/-- A room has members or it is not there. -/
theorem room_iff (h : s.Tidy) (room : String) : .text room ∈ s.members.keys ↔
    ∃ user m, cell? (.text room) (.text user) s.members = some m := by
  constructor
  · intro hroom
    obtain ⟨⟨k, us⟩, hus, rfl⟩ := List.mem_map.mp hroom
    obtain ⟨⟨u, m⟩, hu⟩ := List.exists_mem_of_ne_nil us (h.inhabited _ hus)
    obtain ⟨user, rfl⟩ := (h.users _ hus).named u (List.mem_map_of_mem hu)
    exact ⟨user, m, h.cell?_iff.mpr (Table.mem_flat.mpr ⟨us, hus, hu⟩)⟩
  · rintro ⟨user, m, hm⟩
    obtain ⟨us, hus, -⟩ := Table.mem_flat.mp (h.cell?_iff.mp hm)
    exact List.mem_map.mpr ⟨_, hus, rfl⟩

end Tidy

theorem counts_memberships (s : Store) :
    s.counts.memberships = s.members.flat.countP fun _ => true := by
  rw [List.countP_true]
  simp only [counts, ← Table.map_flat, List.length_map]

theorem counts_joined (s : Store) :
    s.counts.joined = s.members.flat.countP fun e => e.2.isJoined := by
  simp only [counts, ← Table.map_flat, List.countP_map]
  rfl

end Store

def StoreOperation.TextIds : StoreOperation → Prop
  | .markRegistered user => ∃ u, user = .text u
  | .setMembership room user _ | .setMember room user _ | .setTyping room user _ =>
    ∃ r u, room = .text r ∧ user = .text u
  | .setPowerLevels room _ => ∃ r, room = .text r
  | .observe event => ∀ e, Bridge.eventOf event = .ok e → e.HasIds
  | .observeSent room _ key _ _ _ => ∃ r, room = .text r ∧ (key = .null ∨ ∃ k, key = .text k)
  | .absorbEvents events =>
    ∀ es, Bridge.elements events = .ok es → ∀ v ∈ es, ∀ e, Bridge.eventOf v = .ok e → e.HasIds
  | .absorbState state => ∀ e, .ok e ∈ Bridge.eventsOfState state → e.HasIds
  | .absorbJoined room joined => ∃ r, room = .text r ∧
    ∀ entries, joined = .map entries → ∀ entry ∈ entries, ∃ u, entry.1 = .text u
  | _ => True

namespace Bridge

open Attempt (ofResult)
open Store (Tidy Edit)

/-! ## Operations keep a store tidy -/

/-- If the store satisfies the condition, then so does the one that the act leaves. -/
def Maintains (P : Store → Prop) (x : Act α) : Prop :=
  ∀ b, P b.store → P (x.outcome b).2.store

section Rules

variable {P : Store → Prop} {α β : Type}

theorem maintains_of_fixes {x : Act α} (hx : Fixes Bridge.store x) : Maintains P x := by
  intro b hb
  rw [hx b]
  exact hb

theorem Maintains.bind {x : Act α} {f : α → Act β} (hx : Maintains P x)
    (hf : ∀ a, Maintains P (f a)) : Maintains P (x >>= f) := by
  intro b hb
  have h := hx b hb
  rw [Attempt.outcome_bind]
  rcases hout : x.outcome b with ⟨_ | a, b'⟩
  · rw [hout] at h
    exact h
  · rw [hout] at h
    exact hf a b' h

theorem Maintains.forM {f : α → Act PUnit} {as : List α} (hf : ∀ a ∈ as, Maintains P (f a)) :
    Maintains P (as.forM f) := by
  induction as with
  | nil => exact maintains_of_fixes (fixes_pure ())
  | cons a as ih =>
    exact .bind (hf a List.mem_cons_self) fun _ =>
      ih fun a' ha' => hf a' (List.mem_cons_of_mem a ha')

/-- What is returned does not matter. -/
theorem Maintains.return {x : Act α} (hx : Maintains P x) (a : α → β) :
    Maintains P (x >>= fun r => pure (a r)) :=
  hx.bind fun _ => maintains_of_fixes (fixes_pure _)

end Rules

theorem ne_null_of_ofValue {v : Value} {record : PowerRecord}
    (h : PowerRecord.ofValue v = .ok record) : record.toValue ≠ .null := by
  cases v with
  | levels =>
    obtain ⟨levels, -, rfl⟩ := map_eq_ok h
    exact Value.noConfusion
  | map | list =>
    cases h
    exact Value.noConfusion
  | _ => cases h

/-- An event with ids edits cells that have names. -/
theorem isNamed_of_write? {e : Event} {w : Store.Write} (h : e.write? = some w) :
    w.edit.IsNamed := by
  unfold Event.write? at h
  split at h
  · next room key _ _ =>
    split at h
    · obtain ⟨record, -, rfl⟩ := Option.map_eq_some_iff.mp h
      exact ⟨(room, key), rfl⟩
    · split at h
      · obtain ⟨levels, -, rfl⟩ := Option.map_eq_some_iff.mp h
        exact ⟨⟨room, rfl⟩, Value.noConfusion⟩
      · cases h
  · cases h

theorem Change.isNamed_of_edit? {m : Change} {now : Int} {e : Edit} (h : m.edit? now = some e) :
    e.IsNamed := by
  cases m with
  | register user =>
    cases h
    exact ⟨user, rfl⟩
  | setMembership room user membership =>
    cases h
    exact ⟨(room, user), rfl⟩
  | setMember room user record | setTyping room user timeout =>
    obtain ⟨_, -, rfl⟩ := Option.map_eq_some_iff.mp h
    exact ⟨(room, user), rfl⟩
  | setPowerLevels room levels =>
    obtain ⟨record, hrecord, rfl⟩ := Option.map_eq_some_iff.mp h
    refine ⟨⟨room, rfl⟩, ne_null_of_ofValue (v := levels) ?_⟩
    cases hlevels : PowerRecord.ofValue levels with
    | error f => rw [hlevels] at hrecord; cases hrecord
    | ok record' => rw [hlevels] at hrecord; cases hrecord; rfl
  | observe e hids =>
    obtain ⟨w, hw, rfl⟩ := Option.map_eq_some_iff.mp h
    exact isNamed_of_write? hw

theorem tidy_change (m : Change) : Maintains Tidy (performOnStore m.operation) := by
  intro b hb
  change Tidy (m.after b).store
  rw [m.store_after]
  exact hb.edited fun e he => m.isNamed_of_edit? he

theorem tidy_observe {e : Event} (h : e.HasIds) : Maintains Tidy (observe e) := by
  intro b hb
  rw [store_observe h]
  refine hb.edited fun edit hedit => ?_
  obtain ⟨w, hw, rfl⟩ := Option.map_eq_some_iff.mp hedit
  exact isNamed_of_write? hw

theorem tidy_setMember (room user : String) (record : Member) :
    Maintains Tidy (onStore (Store.setMember (.text room) (.text user) record)) := by
  intro b hb
  rw [outcome_onStore]
  exact hb.enter room user record

theorem tidy_absorb {rs : List (Except Failure Event)} (h : ∀ e, .ok e ∈ rs → e.HasIds) :
    Maintains Tidy (absorb rs) := by
  refine .return (.forM fun r hr => ?_) _
  cases r with
  | error f => exact maintains_of_fixes (fixes_throw f)
  | ok e => exact tidy_observe (h e hr)

theorem tidy_absorbJoined (room : String) {joined : List (Value × Value)}
    (h : ∀ entry ∈ joined, ∃ u, entry.1 = .text u) :
    Maintains Tidy (absorbJoined (.text room) joined) := by
  refine .return (.forM fun entry hentry => ?_) _
  obtain ⟨user, info⟩ := entry
  obtain ⟨u, rfl⟩ := h _ hentry
  exact tidy_setMember room u _

theorem tidy_observeSent (room : String) {key : Value} (hkey : key = .null ∨ ∃ k, key = .text k)
    (type content sender id : Value) :
    Maintains Tidy (observeSent (.text room) type key content sender id) := by
  intro b hb
  unfold observeSent
  split
  · split
    · exact hb
    · exact hb
  · next copy _ =>
    rw [Attempt.outcome_bind, Attempt.outcome_get, Attempt.follow_ok]
    dsimp only
    split
    · exact hb
    · exact tidy_observe ⟨⟨room, rfl⟩, hkey⟩ b hb

/-- A question changes nothing. -/
theorem fixes_query {q : StoreOperation} (hq : IsQuery q) :
    Fixes Bridge.store (performOnStore q) := by
  have hask {α : Type} (question : Store → Except Failure α) : Fixes Bridge.store (ask question) :=
    fun b => by rw [outcome_ask]
  cases q with
  | isRegistered | hasMembership | isJoined | isInvited | member =>
    intro b
    rw [performOnStore, Attempt.outcome_map, outcome_ask]
  | membership => exact hask _
  | findMember room user =>
    refine (hask _).bind fun found => ?_
    cases found <;> exact fixes_pure _
  | powerLevels room => exact (hask _).bind fun _ => fixes_pure _
  | isTyping room user =>
    exact Fixes.bind (fun _ => rfl) fun _ => (hask _).bind fun _ => fixes_pure _
  | counts => exact fun _ => rfl
  | _ => exact hq.elim

/-- Every operation whose ids are texts keeps a store tidy. -/
theorem tidy_perform {op : StoreOperation} (h : op.TextIds) :
    Maintains Tidy (performOnStore op) := by
  cases op with
  | markRegistered user =>
    obtain ⟨u, rfl⟩ := h
    exact tidy_change (.register u)
  | setMembership room user membership =>
    obtain ⟨r, u, rfl, rfl⟩ := h
    exact tidy_change (.setMembership r u membership)
  | setMember room user record =>
    obtain ⟨r, u, rfl, rfl⟩ := h
    exact tidy_change (.setMember r u record)
  | setPowerLevels room levels =>
    obtain ⟨r, rfl⟩ := h
    exact tidy_change (.setPowerLevels r levels)
  | setTyping room user timeout =>
    obtain ⟨r, u, rfl, rfl⟩ := h
    exact tidy_change (.setTyping r u timeout)
  | observe event =>
    rw [performOnStore]
    cases hevent : eventOf event with
    | error f => exact maintains_of_fixes (fixes_throw f)
    | ok e => exact .return (tidy_observe (h e hevent)) _
  | observeSent room type key content sender id =>
    obtain ⟨r, rfl, hkey⟩ := h
    exact .return (tidy_observeSent r hkey type content sender id) _
  | absorbEvents events =>
    rw [performOnStore]
    cases hevents : elements events with
    | error f => exact maintains_of_fixes (fixes_throw f)
    | ok es =>
      refine .return (tidy_absorb fun e he => ?_) _
      obtain ⟨v, hv, hevent⟩ := List.mem_map.mp he
      exact h es hevents v hv e hevent
  | absorbState state => exact .return (tidy_absorb h) _
  | absorbJoined room joined =>
    obtain ⟨r, rfl, hentries⟩ := h
    cases joined with
    | map entries => exact .return (tidy_absorbJoined r (hentries entries rfl)) _
    | _ => exact maintains_of_fixes (fixes_throw _)
  | _ => exact maintains_of_fixes (fixes_query trivial)

/-! ## Runs -/

def afterAll (steps : List (Int × StoreOperation)) (b : Bridge) : Bridge :=
  steps.foldl (fun b s => ((performOnStore s.2).outcome { b with now := s.1 }).2) b

theorem tidy_afterAll {steps : List (Int × StoreOperation)} (hids : ∀ s ∈ steps, s.2.TextIds)
    {b : Bridge} (hb : b.store.Tidy) : (b.afterAll steps).store.Tidy := by
  induction steps generalizing b with
  | nil => exact hb
  | cons s steps ih =>
    exact ih (fun s' hs' => hids s' (List.mem_cons_of_mem s hs'))
      (tidy_perform (hids s List.mem_cons_self) { b with now := s.1 } hb)

/-! ## Answers -/

section Answers

variable (room user : String) (b : Bridge)

theorem answer_isRegistered : b.answer (.isRegistered (.text user)) =
    .ok (.bool (b.store.registered.contains (.text user))) := rfl

theorem answer_findMember : b.answer (.findMember (.text room) (.text user)) =
    .ok ((Store.cell? (.text room) (.text user) b.store.members).elim (.list [.null, .bool false])
      fun m => .list [m.toValue, .bool true]) := by
  rw [answer, performOnStore, Attempt.outcome_bind, outcome_ask]
  change (Attempt.follow _ (.ok (Store.cell? (.text room) (.text user) b.store.members), b)).1 = _
  rw [Attempt.follow_ok]
  cases Store.cell? (.text room) (.text user) b.store.members <;> rfl

theorem answer_isJoined : b.answer (.isJoined (.text room) (.text user)) =
    .ok (.bool ((Store.cell? (.text room) (.text user) b.store.members).any Member.isJoined)) := by
  rw [answer, performOnStore, Attempt.outcome_map, outcome_ask, Store.isJoined_eq]
  rfl

theorem answer_powerLevels : b.answer (.powerLevels (.text room)) =
    .ok ((Table.get? (.text room) b.store.powerLevels).elim .null PowerRecord.toValue) := by
  rw [answer, performOnStore, Attempt.outcome_bind, outcome_ask, Store.powerRecord?_eq]
  rfl

theorem answer_counts : b.answer .counts = .ok (countsValue b.store.counts) := rfl

end Answers

section Counting

variable {b : Bridge}

theorem findMember_iff {room user : String} :
    (∃ record, b.answer (.findMember (.text room) (.text user)) =
      .ok (.list [record, .bool true])) ↔
      ∃ m, Store.cell? (.text room) (.text user) b.store.members = some m := by
  rw [answer_findMember]
  cases Store.cell? (.text room) (.text user) b.store.members <;> simp

theorem registered_eq (h : b.store.Tidy) : (b.store.counts.registered : ℕ∞) =
    {user : String | b.answer (.isRegistered (.text user)) = .ok (.bool true)}.encard := by
  calc (b.store.counts.registered : ℕ∞)
    _ = {user | Key.text user ∈ b.store.registered}.encard :=
      h.registered.length_eq Store.Tidy.text_injective
    _ = _ := by simp [answer_isRegistered]

theorem memberships_eq (h : b.store.Tidy) : (b.store.counts.memberships : ℕ∞) =
    {p : String × String | ∃ record, b.answer (.findMember (.text p.1) (.text p.2)) =
      .ok (.list [record, .bool true])}.encard := by
  rw [Store.counts_memberships, h.countP_flat fun _ => true]
  simp only [findMember_iff, and_true]

theorem joined_eq (h : b.store.Tidy) : (b.store.counts.joined : ℕ∞) =
    {p : String × String | b.answer (.isJoined (.text p.1) (.text p.2)) =
      .ok (.bool true)}.encard := by
  rw [Store.counts_joined, h.countP_flat Member.isJoined]
  simp only [answer_isJoined, Except.ok.injEq, Value.bool.injEq, Option.any_eq_true]

theorem rooms_eq (h : b.store.Tidy) : (b.store.counts.rooms : ℕ∞) =
    {room : String | ∃ user record, b.answer (.findMember (.text room) (.text user)) =
      .ok (.list [record, .bool true])}.encard := by
  calc (b.store.counts.rooms : ℕ∞)
    _ = b.store.members.keys.length := congrArg _ (List.length_map _).symm
    _ = {room | Key.text room ∈ b.store.members.keys}.encard :=
      h.rooms.length_eq Store.Tidy.text_injective
    _ = _ := by simp only [findMember_iff, h.room_iff]

theorem powerLevels_eq (h : b.store.Tidy) : (b.store.counts.powerLevels : ℕ∞) =
    {room : String | ∃ levels, b.answer (.powerLevels (.text room)) = .ok levels ∧
      levels ≠ .null}.encard := by
  have hlevels (room : String) : .text room ∈ b.store.powerLevels.keys ↔
      ∃ levels, b.answer (.powerLevels (.text room)) = .ok levels ∧ levels ≠ .null := by
    rw [answer_powerLevels, Table.mem_keys_iff]
    cases hroom : Table.get? (.text room) b.store.powerLevels with
    | none => simp
    | some record => simpa using h.records _ (Table.mem_of_get? hroom)
  calc (b.store.counts.powerLevels : ℕ∞)
    _ = b.store.powerLevels.keys.length := congrArg _ (List.length_map _).symm
    _ = {room | Key.text room ∈ b.store.powerLevels.keys}.encard :=
      h.powerLevels.length_eq Store.Tidy.text_injective
    _ = _ := by simp only [hlevels]

end Counting

/-- After every run of operations with texts as ids on an empty store, the counts are the numbers
of users that are registered, of rooms and users with a record, of those that have joined, of rooms
with such a user and of rooms with levels. No room is left without members. -/
theorem counts_match_answers {b : Bridge} (hempty : b.store = {})
    {steps : List (Int × StoreOperation)} (hids : ∀ s ∈ steps, s.2.TextIds) :
    let b' := b.afterAll steps
    ∃ c, b'.answer .counts = .ok (countsValue c) ∧
      (c.registered : ℕ∞) =
        {user : String | b'.answer (.isRegistered (.text user)) = .ok (.bool true)}.encard ∧
      (c.memberships : ℕ∞) =
        {p : String × String | ∃ record, b'.answer (.findMember (.text p.1) (.text p.2)) =
          .ok (.list [record, .bool true])}.encard ∧
      (c.joined : ℕ∞) =
        {p : String × String | b'.answer (.isJoined (.text p.1) (.text p.2)) =
          .ok (.bool true)}.encard ∧
      (c.rooms : ℕ∞) =
        {room : String | ∃ user record, b'.answer (.findMember (.text room) (.text user)) =
          .ok (.list [record, .bool true])}.encard ∧
      (c.powerLevels : ℕ∞) =
        {room : String | ∃ levels, b'.answer (.powerLevels (.text room)) = .ok levels ∧
          levels ≠ .null}.encard ∧
      ∀ e ∈ b'.store.members, e.2 ≠ [] := by
  have htidy : (b.afterAll steps).store.Tidy :=
    tidy_afterAll hids (hempty ▸ Store.tidy_empty)
  exact ⟨_, answer_counts _, registered_eq htidy, memberships_eq htidy, joined_eq htidy,
    rooms_eq htidy, powerLevels_eq htidy, htidy.inhabited⟩

theorem countsValue_injective : Function.Injective countsValue := by
  rintro ⟨_, _, _, _, _⟩ ⟨_, _, _, _, _⟩ h
  simpa [countsValue, Value.record] using h

/-- Alice joins a room, Bob is listed in it, and an event that is not recognised and a question are
about other rooms. -/
def Example.gathering : List (Int × StoreOperation) :=
  [(1, .markRegistered (.text "@alice:hs")),
    (2, .setMembership (.text "!r:hs") (.text "@alice:hs") (.text "join")),
    (3, .observe (Event.seen (.text "!other:hs") (.text EventType.member) (.text "@carol:hs")
      (.record [("membership", .text "lurk")])).toValue),
    (4, .absorbJoined (.text "!r:hs") (.map [(.text "@bob:hs", .map [])])),
    (5, .findMember (.text "!other:hs") (.text "@alice:hs"))]

theorem counts_gathering :
    (∀ s ∈ Example.gathering, s.2.TextIds) ∧
      let b' := ({} : Bridge).afterAll Example.gathering
      {p : String × String | ∃ record, b'.answer (.findMember (.text p.1) (.text p.2)) =
        .ok (.list [record, .bool true])}.encard = 2 ∧
      {room : String | ∃ user record, b'.answer (.findMember (.text room) (.text user)) =
        .ok (.list [record, .bool true])}.encard = 1 := by
  have hids : ∀ s ∈ Example.gathering, s.2.TextIds := by
    intro s hs
    simp only [Example.gathering, List.mem_cons, List.not_mem_nil, or_false] at hs
    rcases hs with rfl | rfl | rfl | rfl | rfl
    · exact ⟨_, rfl⟩
    · exact ⟨_, _, rfl, rfl⟩
    · rintro e ⟨⟩
      exact ⟨⟨_, rfl⟩, .inr ⟨_, rfl⟩⟩
    · refine ⟨_, rfl, fun entries hentries entry hentry => ?_⟩
      cases hentries
      cases List.mem_singleton.mp hentry
      exact ⟨_, rfl⟩
    · trivial
  refine ⟨hids, ?_⟩
  obtain ⟨c, hc, -, hmemberships, -, hrooms, -⟩ :=
    counts_match_answers (b := {}) rfl hids
  have hcounts : (({} : Bridge).afterAll Example.gathering).store.counts = ⟨1, 1, 2, 2, 0⟩ := by
    decide +kernel
  rw [answer_counts, hcounts] at hc
  cases countsValue_injective (Except.ok.inj hc)
  exact ⟨hmemberships.symm, hrooms.symm⟩

end Bridge

end VirtualUsers
