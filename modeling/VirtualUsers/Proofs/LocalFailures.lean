import VirtualUsers.Bridge.Acting
import VirtualUsers.Proofs.Outcome
/-!
# Failures that need no homeserver

Only a refused request can make an operation fail with a request error or with an unmet
precondition. Everything that is computed on the way (ids, numbers, contents, payloads, the store,
the registry) fails in other ways, if at all.
-/

namespace VirtualUsers

@[simp] def Failure.FromHomeserver : Failure → Prop
  | request _ | precondition .. => True
  | _ => False

/-- A result that is no failure of a homeserver. -/
def StaysLocal (r : Except Failure α) : Prop :=
  ∀ e, r = .error e → ¬ e.FromHomeserver

def Attempt.StaysLocal (x : Attempt σ α) : Prop :=
  ∀ s, VirtualUsers.StaysLocal (x.outcome s).1

section Rules

variable {α β : Type}

@[simp] theorem staysLocal_ok (a : α) : StaysLocal (.ok a) := by
  intro e h
  cases h

@[simp] theorem staysLocal_pure (a : α) : StaysLocal (pure a) := staysLocal_ok a

@[simp] theorem staysLocal_error {e : Failure} :
    StaysLocal (.error e : Except Failure α) ↔ ¬ e.FromHomeserver := by
  constructor
  · intro h
    exact h e rfl
  · intro h e' he
    cases he
    exact h

@[simp] theorem staysLocal_throw {e : Failure} :
    StaysLocal (throw e : Except Failure α) ↔ ¬ e.FromHomeserver := staysLocal_error

@[simp] theorem staysLocal_throw_bind {e : Failure} {f : α → Except Failure β} :
    StaysLocal (throw e >>= f) ↔ ¬ e.FromHomeserver := staysLocal_error

theorem StaysLocal.bind {r : Except Failure α} {f : α → Except Failure β} (hr : StaysLocal r)
    (hf : ∀ a, StaysLocal (f a)) : StaysLocal (r >>= f) := by
  cases r with
  | ok a => exact hf a
  | error e => exact staysLocal_error.mpr (hr e rfl)

theorem StaysLocal.map {r : Except Failure α} {f : α → β} (hr : StaysLocal r) :
    StaysLocal (r.map f) := by
  cases r with
  | ok a => exact staysLocal_ok (f a)
  | error e => exact staysLocal_error.mpr (hr e rfl)

theorem staysLocal_mapM {f : α → Except Failure β} (hf : ∀ a, StaysLocal (f a)) (as : List α) :
    StaysLocal (as.mapM f) := by
  induction as with
  | nil => exact staysLocal_ok []
  | cons a as ih =>
    rw [List.mapM_cons]
    exact (hf a).bind fun b => ih.bind fun bs => staysLocal_ok (b :: bs)

theorem staysLocal_elim {o : Option α} {e : Failure} (he : ¬ e.FromHomeserver) :
    StaysLocal (o.elim (.error e) .ok) := by
  cases o with
  | none => exact staysLocal_error.mpr he
  | some a => exact staysLocal_ok a

end Rules

namespace Value

theorem staysLocal_segment (v : Value) : StaysLocal v.segment := by
  cases v <;> simp [segment]

theorem staysLocal_toKey (v : Value) : StaysLocal v.toKey :=
  staysLocal_elim (by simp)

theorem staysLocal_toInt (v : Value) : StaysLocal v.toInt := by
  cases v with
  | real x =>
    simp only [toInt]
    split
    · simp
    · split <;> simp
  | text s => exact staysLocal_elim (by simp)
  | bytes bs => exact staysLocal_elim (by simp)
  | _ => simp [toInt]

theorem staysLocal_toIntOr (n : Int) (v : Value) : StaysLocal (v.toIntOr n) := by
  unfold toIntOr
  split
  · exact staysLocal_ok n
  · split <;> simp

theorem staysLocal_positive (v : Value) : StaysLocal v.positive := by
  cases v <;> simp [positive]

theorem staysLocal_field? (v : Value) (key : String) : StaysLocal (v.field? key) := by
  cases v <;> simp [field?]

theorem staysLocal_field (v : Value) (key : String) : StaysLocal (v.field key) :=
  (staysLocal_field? v key).map

end Value

namespace Refusal

theorem staysLocal_classify (status errcode message : Value) :
    StaysLocal (classify status errcode message) := by
  have hsays : StaysLocal (saysAlreadyInRoom message) := by
    unfold saysAlreadyInRoom
    split
    · cases message <;> simp
    · simp
  have hgiven : StaysLocal (kindOfGivenCode? errcode) := by
    unfold kindOfGivenCode?
    split
    · cases errcode <;> simp
    · simp
  apply hsays.bind
  intro already
  split
  · exact staysLocal_pure _
  · apply hgiven.bind
    intro kind
    cases kind with
    | some kind => exact staysLocal_pure kind
    | none =>
      dsimp only
      split
      · exact staysLocal_pure _
      · exact (Value.staysLocal_toInt status).bind fun n => staysLocal_pure _

end Refusal

theorem Answer.staysLocal_refusal (status : Int) (body : Value) :
    StaysLocal (Answer.refusal status body) :=
  (Refusal.staysLocal_classify _ _ _).bind fun _ => staysLocal_pure _

namespace PowerLevels

theorem staysLocal_levelsOf (n : Int) (entries : List (Value × Value)) :
    StaysLocal (levelsOf n entries) := by
  induction entries with
  | nil => exact staysLocal_ok []
  | cons entry rest ih =>
    obtain ⟨k, v⟩ := entry
    cases k with
    | text k =>
      exact (Value.staysLocal_toIntOr n v).bind fun m => ih.bind fun ms => staysLocal_pure _
    | _ => exact ih

theorem staysLocal_levelsOfValue (n : Int) (v : Value) : StaysLocal (levelsOfValue n v) := by
  cases v with
  | map entries => exact staysLocal_levelsOf n entries
  | _ => exact staysLocal_ok []

theorem staysLocal_ofContent (content : Value) : StaysLocal (ofContent content) := by
  have hlevel (key : String) (n : Int) :
      StaysLocal (content.field key >>= Value.toIntOr n) :=
    (content.staysLocal_field key).bind (Value.staysLocal_toIntOr n)
  have hlevels (key : String) (n : Int) :
      StaysLocal (content.field key >>= levelsOfValue n) :=
    (content.staysLocal_field key).bind (staysLocal_levelsOfValue n)
  exact (hlevels _ _).bind fun _ => (hlevels _ _).bind fun _ => (hlevel _ _).bind fun _ =>
    (hlevel _ _).bind fun _ => (hlevel _ _).bind fun _ => (hlevel _ _).bind fun _ =>
    (hlevel _ _).bind fun _ => (hlevel _ _).bind fun _ => (hlevel _ _).bind fun _ =>
    staysLocal_pure _

namespace Draft

theorem staysLocal_pairOf (v : Value) : StaysLocal (pairOf v) := by
  unfold pairOf
  split
  case h_2 => split <;> simp
  all_goals simp

theorem staysLocal_ofPairs (entries : List (Value × Value)) (items : List Value) :
    StaysLocal (ofPairs entries items) := by
  induction items generalizing entries with
  | nil => exact staysLocal_ok entries
  | cons item rest ih =>
    exact (staysLocal_pairOf item).bind fun pair =>
      (Value.staysLocal_toKey pair.1).bind fun _ => ih _

theorem staysLocal_copyMap (v : Value) : StaysLocal (copyMap v) := by
  cases v with
  | list items => exact (staysLocal_ofPairs [] items).map
  | text s => exact (staysLocal_ofPairs [] _).map
  | bytes bs =>
    simp only [copyMap]
    split <;> simp
  | _ => simp [copyMap]

theorem staysLocal_toContent (d : Draft) : StaysLocal d.toContent :=
  (staysLocal_copyMap d.users).bind fun _ =>
    (staysLocal_copyMap d.events).bind fun _ => staysLocal_pure _

theorem staysLocal_finish (d : Draft) : StaysLocal d.finish :=
  d.staysLocal_toContent.bind staysLocal_ofContent

theorem staysLocal_userLevel (d : Draft) (user : Value) : StaysLocal (d.userLevel user) := by
  unfold userLevel
  split
  · exact user.staysLocal_toKey.map
  · simp

theorem staysLocal_dropUser (user users : Value) : StaysLocal (dropUser user users) := by
  unfold dropUser
  split
  · simp
  · exact user.staysLocal_toKey.map
  · simp
  · simp

theorem staysLocal_enterUser (user : Value) (level : Int) (users : Value) :
    StaysLocal (enterUser user level users) := by
  unfold enterUser
  split
  · exact user.staysLocal_toKey.map
  · simp

theorem staysLocal_setUserLevel (d : Draft) (user level : Value) :
    StaysLocal (d.setUserLevel user level) := by
  unfold setUserLevel
  split
  · exact (staysLocal_dropUser user d.users).bind fun _ => staysLocal_pure _
  · exact level.staysLocal_toInt.bind fun n =>
      (staysLocal_enterUser user n d.users).bind fun _ => staysLocal_pure _

end Draft

end PowerLevels

theorem Member.staysLocal_ofContent (content : Value) : StaysLocal (Member.ofContent content) :=
  (content.staysLocal_field _).bind fun _ => (content.staysLocal_field _).bind fun _ =>
    (content.staysLocal_field _).bind fun _ => staysLocal_pure _

namespace Event

theorem staysLocal_validate (e : Event) : StaysLocal e.validate := by
  unfold validate
  by_cases hroom : isNonEmptyText e.room
  · by_cases htype : isNonEmptyText e.type
    · by_cases hcontent : e.content.isMap
      · simp only [hroom, htype, hcontent, if_true]
        split <;> simp
      · simp [hroom, htype, hcontent]
    · simp [hroom, htype]
  · simp [hroom]

theorem staysLocal_read (raw room : Value) : StaysLocal (read raw room) := by
  unfold read
  split
  · exact (staysLocal_validate _).bind fun _ => staysLocal_pure _
  · simp

end Event

namespace Content

theorem staysLocal_ofRecord (content : Value) : StaysLocal (ofRecord content) := by
  cases content with
  | levels => exact PowerLevels.Draft.staysLocal_toContent _
  | _ => exact staysLocal_ok _

theorem staysLocal_clone (content : Value) : StaysLocal (clone content) := by
  have hencode (v : Value) : StaysLocal (Cbor.encode v) := staysLocal_elim (by simp)
  have hdecode (bs : List UInt8) : StaysLocal (Cbor.decode bs) := by
    unfold Cbor.decode
    split <;> simp
  refine (staysLocal_ofRecord content).bind fun v => (hencode v).bind fun bs =>
    (hdecode bs).bind fun copy => ?_
  split <;> simp

end Content

namespace Attempt

variable {σ τ α β : Type}

theorem staysLocal_pure (a : α) : (pure a : Attempt σ α).StaysLocal :=
  fun _ => VirtualUsers.staysLocal_ok a

theorem staysLocal_throw {e : Failure} (he : ¬ e.FromHomeserver) :
    (throw e : Attempt σ α).StaysLocal :=
  fun _ => VirtualUsers.staysLocal_error.mpr he

theorem staysLocal_get : (get : Attempt σ σ).StaysLocal := fun s => VirtualUsers.staysLocal_ok s

theorem staysLocal_set (s : σ) : (set s : Attempt σ Unit).StaysLocal :=
  fun _ => VirtualUsers.staysLocal_ok ()

theorem staysLocal_modify (f : σ → σ) : (modify f : Attempt σ Unit).StaysLocal :=
  fun _ => VirtualUsers.staysLocal_ok ()

theorem staysLocal_ofResult {r : Except Failure α} (hr : VirtualUsers.StaysLocal r) :
    (ofResult r : Attempt σ α).StaysLocal := by
  intro s
  rw [outcome_ofResult]
  exact hr

theorem StaysLocal.bind {x : Attempt σ α} {f : α → Attempt σ β} (hx : x.StaysLocal)
    (hf : ∀ a, (f a).StaysLocal) : (x >>= f).StaysLocal := by
  intro s
  have hs := hx s
  rw [outcome_bind]
  rcases hxs : x.outcome s with ⟨_ | a, t⟩
  · rw [hxs] at hs
    exact VirtualUsers.staysLocal_error.mpr (hs _ rfl)
  · exact hf a t

theorem StaysLocal.within {read : σ → τ} {write : τ → σ → σ} {x : Attempt τ α}
    (hx : x.StaysLocal) : (within read write x).StaysLocal := by
  intro s
  rw [outcome_within]
  exact hx (read s)

theorem StaysLocal.result_bind {x : Attempt σ α} {f : Except Failure α → Attempt σ β}
    (hx : x.StaysLocal) (hf : ∀ r, VirtualUsers.StaysLocal r → (f r).StaysLocal) :
    (result x >>= f).StaysLocal := by
  intro s
  rw [outcome_bind, outcome_result]
  exact hf _ (hx s) _

theorem StaysLocal.forM {f : α → Attempt σ PUnit} {as : List α}
    (hf : ∀ a ∈ as, (f a).StaysLocal) : (as.forM f).StaysLocal := by
  induction as with
  | nil => exact staysLocal_pure ()
  | cons a as ih =>
    exact (hf a List.mem_cons_self).bind fun _ => ih fun a' h => hf a' (List.mem_cons_of_mem a h)

end Attempt

namespace Store

open Attempt (ofResult)

theorem staysLocal_userKey (user : Value) (enterRoom : Store → Store) :
    (userKey user enterRoom).StaysLocal := by
  unfold userKey
  split
  · exact Attempt.staysLocal_pure _
  · exact (Attempt.staysLocal_modify _).bind fun _ => Attempt.staysLocal_throw (by simp)

theorem staysLocal_setMembership (room user membership : Value) :
    (setMembership room user membership).StaysLocal :=
  (Attempt.staysLocal_ofResult room.staysLocal_toKey).bind fun _ =>
    (staysLocal_userKey user _).bind fun _ => Attempt.staysLocal_modify _

theorem staysLocal_setMember (room user : Value) (record : Member) :
    (setMember room user record).StaysLocal :=
  (Attempt.staysLocal_ofResult room.staysLocal_toKey).bind fun _ =>
    (staysLocal_userKey user _).bind fun _ => Attempt.staysLocal_modify _

theorem staysLocal_ofValue (levels : Value) : StaysLocal (PowerRecord.ofValue levels) := by
  cases levels with
  | levels => exact (PowerLevels.Draft.staysLocal_finish _).map
  | _ => simp [PowerRecord.ofValue]

theorem staysLocal_copy (record : PowerRecord) : StaysLocal record.copy := by
  cases record with
  | levels l => exact l.draft.staysLocal_finish.map
  | raw content => exact staysLocal_ok _

theorem staysLocal_powerRecord? (room : Value) (s : Store) : StaysLocal (s.powerRecord? room) := by
  apply room.staysLocal_toKey.bind
  intro key
  cases Table.get? key s.powerLevels with
  | none => exact staysLocal_ok none
  | some record => exact (staysLocal_copy record).map

theorem staysLocal_setPowerLevels (room levels : Value) :
    (setPowerLevels room levels).StaysLocal :=
  (Attempt.staysLocal_ofResult (staysLocal_ofValue levels)).bind fun _ =>
    (Attempt.staysLocal_ofResult room.staysLocal_toKey).bind fun _ => Attempt.staysLocal_modify _

theorem staysLocal_typingExpiry (now : Int) (timeout : Value) :
    StaysLocal (typingExpiry now timeout) := by
  apply timeout.staysLocal_positive.bind
  intro positive
  split
  · exact timeout.staysLocal_toInt.bind fun _ => VirtualUsers.staysLocal_pure _
  · exact VirtualUsers.staysLocal_pure _

theorem staysLocal_setTyping (now : Int) (room user timeout : Value) :
    (setTyping now room user timeout).StaysLocal :=
  (Attempt.staysLocal_ofResult (staysLocal_typingExpiry now timeout)).bind fun _ =>
    (Attempt.staysLocal_ofResult room.staysLocal_toKey).bind fun _ =>
      (staysLocal_userKey user _).bind fun _ => Attempt.staysLocal_modify _

theorem staysLocal_observeMember (e : Event) : (observeMember e).StaysLocal := by
  apply (Attempt.staysLocal_ofResult (e.content.staysLocal_field _)).bind
  intro membership
  split
  · exact (Attempt.staysLocal_ofResult (Member.staysLocal_ofContent e.content)).bind fun _ =>
      (staysLocal_setMember _ _ _).bind fun _ => Attempt.staysLocal_pure _
  · exact Attempt.staysLocal_pure _

theorem staysLocal_observeLevels (e : Event) : (observeLevels e).StaysLocal :=
  (Attempt.staysLocal_ofResult (PowerLevels.staysLocal_ofContent e.content)).bind fun _ =>
    staysLocal_setPowerLevels _ _

theorem staysLocal_observe (e : Event) : (observe e).StaysLocal := by
  unfold observe
  split
  · exact Attempt.staysLocal_pure _
  · split
    · exact staysLocal_observeMember e
    · split
      · exact (staysLocal_observeLevels e).bind fun _ => Attempt.staysLocal_pure _
      · exact Attempt.staysLocal_pure _

theorem staysLocal_member? (room user : Value) (s : Store) : StaysLocal (s.member? room user) :=
  room.staysLocal_toKey.bind fun _ => user.staysLocal_toKey.bind fun _ =>
    VirtualUsers.staysLocal_pure _

theorem staysLocal_hasMembership (room user : Value) (allowed : List Value) (s : Store) :
    StaysLocal (s.hasMembership room user allowed) :=
  (staysLocal_member? room user s).map.map.map

theorem staysLocal_isTyping (now : Int) (room user : Value) (s : Store) :
    StaysLocal (s.isTyping now room user) :=
  room.staysLocal_toKey.bind fun _ => user.staysLocal_toKey.bind fun _ =>
    VirtualUsers.staysLocal_pure _

end Store

namespace Registry

theorem staysLocal_explain {α : Type} (path : String) (r : Except FileProblem α) :
    StaysLocal (FileTree.explain path r) := by
  cases r <;> simp [FileTree.explain]

theorem staysLocal_idsOfKeys (keys : List Key) : StaysLocal (idsOfKeys keys) := by
  unfold idsOfKeys
  split <;> simp

theorem staysLocal_write (ids : List String) (text : String) : StaysLocal (write ids text) := by
  unfold write
  split
  · split
    · simp
    · split <;> simp
  · simp

theorem staysLocal_create (path : String) (ids : List String) : (create path ids).StaysLocal := by
  have hmake (files : FileTree) (directory : String) :
      StaysLocal (files.makePrivateDirectory directory) := (staysLocal_explain _ _).map
  have hwrite : (do
      let text ← Attempt.ofResult (write ids "")
      let files ← Attempt.ofResult ((← get).write path text)
      set (files.setMode path FileTree.privateFileMode) : Attempt FileTree Unit).StaysLocal :=
    (Attempt.staysLocal_ofResult (staysLocal_write ids "")).bind fun _ =>
      Attempt.staysLocal_get.bind fun _ =>
        (Attempt.staysLocal_ofResult (staysLocal_explain _ _)).bind fun _ =>
          Attempt.staysLocal_set _
  unfold create
  dsimp only
  split
  · exact Attempt.staysLocal_get.bind fun files =>
      (Attempt.staysLocal_ofResult (hmake files _)).bind fun _ =>
        (Attempt.staysLocal_set _).bind fun _ => hwrite
  · exact hwrite

theorem staysLocal_save (path : String) (keys : List Key) : (save path keys).StaysLocal := by
  apply Attempt.staysLocal_get.bind
  intro files
  split
  · exact Attempt.staysLocal_throw (by simp)
  · exact (Attempt.staysLocal_ofResult (staysLocal_idsOfKeys keys)).bind fun ids =>
      staysLocal_create path ids
  · exact Attempt.staysLocal_get.bind fun files =>
      (Attempt.staysLocal_ofResult (staysLocal_explain _ _).map).bind fun _ =>
        (Attempt.staysLocal_ofResult (staysLocal_idsOfKeys keys)).bind fun _ =>
          (Attempt.staysLocal_ofResult (staysLocal_write _ _)).bind fun _ =>
            (Attempt.staysLocal_ofResult (staysLocal_explain _ _)).bind fun _ =>
              Attempt.staysLocal_set _

end Registry

namespace Bridge

open Attempt (ofResult)

theorem staysLocal_note (name : String) (level : Int) (text : String) :
    (note name level text).StaysLocal :=
  Attempt.staysLocal_modify _

theorem staysLocal_count (c : Counter) (n : Int) : (count c n).StaysLocal :=
  Attempt.staysLocal_modify _

theorem staysLocal_onStore {x : Attempt Store α} (hx : x.StaysLocal) : (onStore x).StaysLocal :=
  hx.within

theorem staysLocal_saveRegistered (path : String) : (saveRegistered path).StaysLocal := by
  refine Attempt.staysLocal_get.bind fun b => Attempt.StaysLocal.result_bind
    (Registry.staysLocal_save path _).within fun r hr => ?_
  rcases r with e | _
  · cases e with
    | file p path => exact staysLocal_note _ _ _
    | _ => exact Attempt.staysLocal_throw (hr _ rfl)
  · exact Attempt.staysLocal_pure ()

theorem staysLocal_markRegistered (user : Value) : (markRegistered user).StaysLocal := by
  refine (Attempt.staysLocal_ofResult user.staysLocal_toKey).bind fun key =>
    Attempt.staysLocal_get.bind fun b => ?_
  split
  · exact Attempt.staysLocal_pure ()
  · refine (Attempt.staysLocal_modify _).bind fun _ => Attempt.staysLocal_get.bind fun b => ?_
    split
    · exact staysLocal_saveRegistered _
    · exact Attempt.staysLocal_pure ()

theorem staysLocal_observe (e : Event) : (observe e).StaysLocal := by
  apply (staysLocal_onStore (Store.staysLocal_observe e)).bind
  intro membership
  cases membership with
  | none => exact Attempt.staysLocal_pure ()
  | some m => exact staysLocal_note _ _ _

theorem staysLocal_absorbEvents (events : List Event) : (absorbEvents events).StaysLocal := by
  refine (Attempt.StaysLocal.forM fun r hr => ?_).bind fun _ => Attempt.staysLocal_pure _
  obtain ⟨e, -, rfl⟩ := List.mem_map.mp hr
  exact (Attempt.staysLocal_ofResult (VirtualUsers.staysLocal_ok e)).bind staysLocal_observe

theorem staysLocal_absorbJoined (room : Value) (joined : List (Value × Value)) :
    (absorbJoined room joined).StaysLocal :=
  (Attempt.StaysLocal.forM fun _ _ =>
    staysLocal_onStore (Store.staysLocal_setMember room _ _)).bind fun _ =>
      Attempt.staysLocal_pure _

theorem staysLocal_observeSent (room type key content sender id : Value) :
    (observeSent room type key content sender id).StaysLocal := by
  have hclone := Content.staysLocal_clone content
  unfold observeSent
  split
  · next e he =>
    split
    · exact staysLocal_note _ _ _
    · exact Attempt.staysLocal_throw (hclone e he)
  · apply Attempt.staysLocal_get.bind
    intro b
    dsimp only
    split
    · exact staysLocal_note _ _ _
    · exact staysLocal_observe _

theorem staysLocal_recordJoin (i : Intent) (joined : Value) : (recordJoin i joined).StaysLocal :=
  (staysLocal_onStore (Store.staysLocal_setMembership _ _ _)).bind fun _ =>
    (staysLocal_count _ _).bind fun _ => staysLocal_note _ _ _

theorem staysLocal_recordState (i : Intent) (room type key content id : Value) :
    (recordState i room type key content id).StaysLocal :=
  (staysLocal_count _ _).bind fun _ => staysLocal_observeSent _ _ _ _ _ _

theorem staysLocal_recordChange (action : MembershipAction) (room user : Value) :
    (recordChange action room user).StaysLocal :=
  (staysLocal_onStore (Store.staysLocal_setMembership _ _ _)).bind fun _ => staysLocal_count _ _

theorem staysLocal_recordLevels (room content : Value) : (recordLevels room content).StaysLocal :=
  (Attempt.staysLocal_ofResult (PowerLevels.staysLocal_ofContent content)).bind fun _ =>
    (staysLocal_onStore (Store.staysLocal_setPowerLevels _ _)).bind fun _ =>
      Attempt.staysLocal_pure _

theorem staysLocal_recordTyping (i : Intent) (now : Int) (room typing timeout : Value) :
    (recordTyping i now room typing timeout).StaysLocal :=
  (staysLocal_count _ _).bind fun _ => staysLocal_onStore (Store.staysLocal_setTyping _ _ _ _)

end Bridge

end VirtualUsers
