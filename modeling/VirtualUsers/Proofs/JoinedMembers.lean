import VirtualUsers.Proofs.Cells
import VirtualUsers.Proofs.Gate
/-!
# Joined members

Reading the joined members of a room enters all users that are listed, and nobody else. Main
statement: the records of listed users are those of the list, and all other cells of the store stay
as they are, so that users who were in the room before are still in it, whether they are listed or
not.
-/

namespace VirtualUsers

namespace Value

def textAt (name : String) : Value → Value
  | map entries =>
    match lookup? name entries with
    | some (text s) => text s
    | _ => null
  | _ => null

end Value

namespace Bridge

open Attempt (ofResult)
open Store (Cell Edit cell?)

theorem joinedRecord_eq (info : Value) : joinedRecord info =
    ⟨.text Membership.join, info.textAt "display_name", info.textAt "avatar_url"⟩ := by
  cases info with
  | map entries =>
    have hfield (name : String) : Member.textOrNull ((Value.lookup? name entries).getD .null) =
        (Value.map entries).textAt name := by
      rw [Value.textAt]
      cases Value.lookup? name entries with
      | none => rfl
      | some v => cases v <;> rfl
    exact congrArg₂ _ (hfield _) (hfield _)
  | _ => rfl

/-- What entering the joined members of a room leaves of a store. Of two entries for one user the
last one counts. -/
structure Joins (room : String) (joined : List (Value × Value)) (s s' : Store) : Prop where
  member (user : String) : cell? (.text room) (.text user) s'.members =
    ((Value.lookup? user joined.reverse).map joinedRecord).or
      (cell? (.text room) (.text user) s.members)
  others (c : Cell) (h : ∀ user, c ≠ .member (.text room) (.text user)) :
    s'.holding c = s.holding c

theorem Joins.cons {room user : String} {info : Value} {joined : List (Value × Value)}
    {s s' : Store} (h : Joins room joined ((Edit.member (.text room) (.text user)
      fun _ => joinedRecord info).on s) s') : Joins room ((.text user, info) :: joined) s s' where
  member user' := by
    rw [h.member, List.reverse_cons, Value.lookup?_append, Value.lookup?_cons]
    simp only [Edit.on, Store.cell?_enter]
    -- An entry further down the list overwrites what this one leaves.
    by_cases huser : user' = user
    · subst huser
      cases Value.lookup? user' joined.reverse <;> simp
    · simp [huser, Ne.symm huser, Value.lookup?]
  others c hc := (h.others c hc).trans (Store.holding_on_of_ne (hc user) s)

theorem absorbJoined_ok (room : String) {joined : List (Value × Value)}
    (hkeys : ∀ e ∈ joined, ∃ user, e.1 = .text user) (b : Bridge) :
    ∃ s, (absorbJoined (.text room) joined).outcome b =
        (.ok (joined.length : Int), { b with store := s }) ∧ Joins room joined b.store s := by
  have heach (b : Bridge) : ∃ s, (joined.forM fun e =>
      onStore (Store.setMember (.text room) e.1 (joinedRecord e.2))).outcome b =
        (.ok (), { b with store := s }) ∧ Joins room joined b.store s := by
    induction joined generalizing b with
    | nil => exact ⟨b.store, rfl, fun user => rfl, fun c _ => rfl⟩
    | cons e joined ih =>
      obtain ⟨k, info⟩ := e
      obtain ⟨user, rfl⟩ := hkeys _ List.mem_cons_self
      let edit : Edit := .member (.text room) (.text user) fun _ => joinedRecord info
      obtain ⟨s, hs, hjoins⟩ := ih (fun e he => hkeys e (List.mem_cons_of_mem _ he))
        { b with store := edit.on b.store }
      exact ⟨s, hs, hjoins.cons⟩
  obtain ⟨s, hs, hjoins⟩ := heach b
  refine ⟨s, ?_, hjoins⟩
  rw [absorbJoined, Attempt.outcome_bind]
  exact congrArg (Attempt.follow _) hs

/-- A user is in the room if listed, or if there before. -/
theorem Joins.isJoined_iff {room : String} {joined : List (Value × Value)} {s s' : Store}
    (h : Joins room joined s s') (user : String) :
    s'.isJoined (.text room) (.text user) = .ok true ↔
      .text user ∈ joined.map (·.1) ∨ s.isJoined (.text room) (.text user) = .ok true := by
  have hlisted : .text user ∈ joined.map (·.1) ↔ (Value.lookup? user joined.reverse).isSome := by
    rw [Value.lookup?_isSome_iff, List.map_reverse, List.mem_reverse]
  rw [Store.isJoined_eq, Store.isJoined_eq, h.member, hlisted]
  cases Value.lookup? user joined.reverse with
  | none => simp
  | some info => simp [joinedRecord, Member.isJoined, Value.same_text_iff]

variable {b : Bridge} {data : Value} {joined : List (Value × Value)} (i : Intent) (room : String)

/-- The list is read, entered and counted. -/
theorem outcome_joinedMembers (hanswer : b.upcoming = some data) (hdata : data.IsJson)
    (hjoined : data.field "joined" = .ok (.map joined)) :
    ∃ c, (perform i (.joinedMembers (.text room))).outcome b = (.ok (.map joined), c) ∧
      Joins room joined b.store c.store := by
  have hread : joinedOf data = .ok joined := by
    rw [joinedOf, hjoined]
    rfl
  have hmakes : Makes b joinedOf (readJoinedMembers i.client (.text room)) :=
    .check (segment_text room) ((makes_send b i.client _ _ _ _).reading joinedOf)
  obtain ⟨c, hout, hstore⟩ := hmakes.reads hanswer hread
  obtain ⟨s, habsorb, hjoins⟩ := absorbJoined_ok room (text_of_joinedOf hdata hread) c
  refine ⟨{ c with store := s, tally := c.tally.add .stateAbsorbed joined.length }, ?_,
    hstore ▸ hjoins⟩
  change (Value.map <$> joinedMembers i (.text room)).outcome b = _
  rw [Attempt.outcome_map, joinedMembers, Attempt.outcome_bind, hout, Attempt.follow_ok,
    Attempt.outcome_bind, habsorb]
  rfl

/-- Reading the joined members of a room returns those that are listed. Each of them has the record
that the list gives, and nothing else changes: a user is in the room afterwards if listed or if
there before. So the users in the room are those that are listed if and only if there was nobody
else before. -/
theorem joined_members_entered (hanswer : b.upcoming = some data) (hdata : data.IsJson)
    (hjoined : data.field "joined" = .ok (.map joined)) :
    ∃ c, (perform i (.joinedMembers (.text room))).outcome b = (.ok (.map joined), c) ∧
      (∀ user : String, cell? (.text room) (.text user) c.store.members =
        ((Value.lookup? user joined.reverse).map fun info =>
          ⟨.text Membership.join, info.textAt "display_name", info.textAt "avatar_url"⟩).or
          (cell? (.text room) (.text user) b.store.members)) ∧
      (∀ cell, (∀ user, cell ≠ .member (.text room) (.text user)) →
        c.store.holding cell = b.store.holding cell) ∧
      (∀ user : String, c.store.isJoined (.text room) (.text user) = .ok true ↔
        .text user ∈ joined.map (·.1) ∨ b.store.isJoined (.text room) (.text user) = .ok true) ∧
      ((∀ user : String, c.store.isJoined (.text room) (.text user) = .ok true ↔
        .text user ∈ joined.map (·.1)) ↔
        ∀ user : String, b.store.isJoined (.text room) (.text user) = .ok true →
          .text user ∈ joined.map (·.1)) := by
  obtain ⟨c, hout, hjoins⟩ := outcome_joinedMembers i room hanswer hdata hjoined
  refine ⟨c, hout, fun user => ?_, hjoins.others, hjoins.isJoined_iff, ?_⟩
  · rw [hjoins.member user, funext joinedRecord_eq]
  · simp only [hjoins.isJoined_iff, or_iff_left_iff_imp]

def Example.pair (data : Value) : Bridge :=
  { inside with
    store := { members := [(.text "!r:hs",
      [(.text "@alice:hs", { membership := .text Membership.join }),
        (.text "@bob:hs", { membership := .text Membership.join })])] }
    answers := [.reply 200 (some data)] }

theorem Example.bob_joined (data : Value) :
    (pair data).store.isJoined (.text "!r:hs") (.text "@bob:hs") = .ok true := by
  rw [Store.isJoined_eq]
  exact congrArg Except.ok ((Value.same_text_iff _ _).mpr rfl)

/-- Carol is listed with a name and with an avatar that is no text. Bob is not listed. -/
theorem joined_members_entered_carol :
    let carol := Value.record [("display_name", .text "Carol"), ("avatar_url", .int 5)]
    let data := Value.record [("joined", .record [("@carol:hs", carol)])]
    (Example.pair data).upcoming = some data ∧ data.IsJson ∧
      ∃ c, (perform Example.alice (.joinedMembers (.text "!r:hs"))).outcome (Example.pair data) =
          (.ok (.record [("@carol:hs", carol)]), c) ∧
        cell? (.text "!r:hs") (.text "@carol:hs") c.store.members =
          some ⟨.text Membership.join, .text "Carol", .null⟩ ∧
        c.store.isJoined (.text "!r:hs") (.text "@bob:hs") = .ok true := by
  intro carol data
  have hdata : data.IsJson := by
    refine Value.isJson_record fun f hf => ?_
    cases List.mem_singleton.mp hf
    refine Value.isJson_record fun f hf => ?_
    cases List.mem_singleton.mp hf
    refine Value.isJson_record fun f hf => ?_
    rcases List.mem_pair.mp hf with rfl | rfl
    · exact .text _
    · exact .int _
  obtain ⟨c, hout, hrecord, -, hjoined, -⟩ := joined_members_entered Example.alice "!r:hs"
    (b := Example.pair data) rfl hdata rfl
  exact ⟨rfl, hdata, c, hout, hrecord "@carol:hs",
    (hjoined "@bob:hs").mpr (.inr (Example.bob_joined data))⟩

/-- Nobody is listed, and Bob stays in the room. -/
theorem unlisted_member_stays_joined :
    let data := Value.record [("joined", .map [])]
    ∃ c, (perform Example.alice (.joinedMembers (.text "!r:hs"))).outcome (Example.pair data) =
        (.ok (.map []), c) ∧
      c.store.isJoined (.text "!r:hs") (.text "@bob:hs") = .ok true := by
  intro data
  have hdata : data.IsJson :=
    Value.isJson_record fun f hf => List.mem_singleton.mp hf ▸ Value.isJson_nil
  obtain ⟨c, hout, hjoins⟩ := outcome_joinedMembers Example.alice "!r:hs"
    (b := Example.pair data) rfl hdata rfl
  exact ⟨c, hout, (hjoins.isJoined_iff "@bob:hs").mpr (.inr (Example.bob_joined data))⟩

end Bridge

end VirtualUsers
