import VirtualUsers.Proofs.Levels
import VirtualUsers.Proofs.Reordering
/-!
# Infinite levels

Whatever stands where content is to give a level counts as some whole number, and as the default if
it is no number. Only an infinite number has no level, and no default stands in for it. So content
fails to give levels exactly if there is an infinite number in one of these places, and it fails
with an overflow whatever else it holds.
-/

namespace VirtualUsers

def Value.isInfinite : Value → Bool
  | .real x => x.isInfinite
  | _ => false

namespace PowerLevels

def isInfiniteEntry : Value × Value → Bool
  | (.text _, v) => v.isInfinite
  | _ => false

def isInfiniteMap : Value → Bool
  | .map entries => entries.any isInfiniteEntry
  | _ => false

/-- Where content is to give a level, in a field of its own or in one of the two maps, there is an
infinite number. -/
def isInfinite (entries : List (Value × Value)) : Bool :=
  let field (key : String) : Value := (Value.lookup? key entries).getD .null
  isInfiniteMap (field "users") || isInfiniteMap (field "events")
    || ["users_default", "events_default", "state_default", "ban", "kick", "redact",
      "invite"].any fun key => (field key).isInfinite

end PowerLevels

/-! ## Results that overflow -/

/-- The result is an overflow under a condition, and there is one otherwise. -/
def OverflowsIf (infinite : Bool) (r : Except Failure α) : Prop :=
  if infinite then r = .error .overflow else ∃ a, r = .ok a

namespace OverflowsIf

variable {p q : Bool} {r : Except Failure α} {f : α → Except Failure β}

theorem ok (a : α) : OverflowsIf false (.ok a : Except Failure α) :=
  ⟨a, rfl⟩

/-- Of two stages either one may overflow. -/
theorem bind (hr : OverflowsIf p r) (hf : ∀ a, OverflowsIf q (f a)) :
    OverflowsIf (p || q) (r >>= f) := by
  cases p with
  | true =>
    have hr : r = .error .overflow := hr
    rw [hr]
    rfl
  | false =>
    obtain ⟨a, rfl⟩ : ∃ a, r = .ok a := hr
    exact hf a

/-- What is made of a result does not matter. -/
theorem map (hr : OverflowsIf p r) (f : α → β) : OverflowsIf p (r >>= fun a => .ok (f a)) := by
  have h := hr.bind fun a => OverflowsIf.ok (f a)
  rwa [Bool.or_false] at h

theorem of_error {e : Failure} (h : OverflowsIf p (.error e : Except Failure α)) :
    p = true ∧ e = .overflow := by
  cases p with
  | true =>
    have he : (.error e : Except Failure α) = .error .overflow := h
    cases he
    exact ⟨rfl, rfl⟩
  | false =>
    obtain ⟨a, ha⟩ : ∃ a, (.error e : Except Failure α) = .ok a := h
    cases ha

theorem of_ok {a : α} (h : OverflowsIf p (.ok a : Except Failure α)) : p = false := by
  cases p with
  | true =>
    have ha : (.ok a : Except Failure α) = .error .overflow := h
    cases ha
  | false => rfl

end OverflowsIf

/-! ## Levels -/

theorem Double.not_isNaN_of_isInfinite {x : Double} (h : x.isInfinite) : x.isNaN = false := by
  simp only [isInfinite, Bool.and_eq_true, beq_iff_eq] at h
  simp [isNaN, h.2]

theorem Value.toIntOr_overflows (default : Int) (v : Value) :
    OverflowsIf v.isInfinite (v.toIntOr default) := by
  cases v with
  | real x =>
    by_cases hx : x.isInfinite
    · have hnan := Double.not_isNaN_of_isInfinite hx
      simp [OverflowsIf, isInfinite, toIntOr, toInt, hx, hnan]
    · by_cases hnan : x.isNaN <;> simp [OverflowsIf, isInfinite, toIntOr, toInt, hx, hnan]
  | int n => exact .ok n
  | text s =>
    simp only [isInfinite, toIntOr, toInt]
    cases Number.parseInt? s.toList with
    | none => exact .ok default
    | some n => exact .ok n
  | bytes bs =>
    simp only [isInfinite, toIntOr, toInt]
    cases Number.parseInt? (asciiChars bs) with
    | none => exact .ok default
    | some n => exact .ok n
  | _ => exact .ok default

namespace PowerLevels

theorem levelsOf_overflows (default : Int) (entries : List (Value × Value)) :
    OverflowsIf (entries.any isInfiniteEntry) (levelsOf default entries) := by
  induction entries with
  | nil => exact .ok []
  | cons e rest ih =>
    obtain ⟨k, v⟩ := e
    rw [List.any_cons]
    cases k with
    | text k => exact (v.toIntOr_overflows default).bind fun n => ih.map _
    | _ => exact ih

theorem levelsOfValue_overflows (default : Int) (v : Value) :
    OverflowsIf (isInfiniteMap v) (levelsOfValue default v) := by
  cases v with
  | map entries => exact levelsOf_overflows default entries
  | _ => exact .ok []

/-- Content gives levels unless there is an infinite number for a level, and then it overflows. -/
theorem ofContent_overflows (entries : List (Value × Value)) :
    OverflowsIf (isInfinite entries) (ofContent (.map entries)) := by
  let field (key : String) : Value := (Value.lookup? key entries).getD .null
  have hlevel (key : String) (n : Int) :
      OverflowsIf (field key).isInfinite
        ((Value.map entries).field key >>= Value.toIntOr n) :=
    Value.toIntOr_overflows n _
  have hlevels (key : String) (n : Int) :
      OverflowsIf (isInfiniteMap (field key))
        ((Value.map entries).field key >>= levelsOfValue n) :=
    levelsOfValue_overflows n _
  have hsame : isInfinite entries =
      (isInfiniteMap (field "users") || (isInfiniteMap (field "events") ||
        ((field "users_default").isInfinite || ((field "events_default").isInfinite ||
        ((field "state_default").isInfinite || ((field "ban").isInfinite ||
        ((field "kick").isInfinite || ((field "redact").isInfinite ||
        ((field "invite").isInfinite || false))))))))) :=
    Bool.or_assoc ..
  rw [hsame]
  exact (hlevels _ _).bind fun _ => (hlevels _ _).bind fun _ => (hlevel _ _).bind fun _ =>
    (hlevel _ _).bind fun _ => (hlevel _ _).bind fun _ => (hlevel _ _).bind fun _ =>
    (hlevel _ _).bind fun _ => (hlevel _ _).bind fun _ => (hlevel _ _).bind fun _ => .ok _

end PowerLevels

/-! ## Events -/

/-- The event is for power levels, and where its content is to give a level there is an infinite
number. -/
def Event.isInfinite (e : Event) : Bool :=
  match e.stateKey, e.content with
  | .text _, .map entries => e.isLevels && PowerLevels.isInfinite entries
  | _, _ => false

namespace Store

variable {e : Event}

/-- The result is an overflow under a condition, and then the store is left alone. -/
def Overflowing (infinite : Bool) (s : Store) (out : Except Failure α × Store) : Prop :=
  OverflowsIf infinite out.1 ∧ (infinite → out.2 = s)

theorem overflowing_ok (a : α) (s s' : Store) : Overflowing false s (.ok a, s') :=
  ⟨.ok a, nofun⟩

/-- What is returned does not matter. -/
theorem Overflowing.returning {infinite : Bool} {s : Store} {x : Attempt Store α}
    (h : Overflowing infinite s (x.outcome s)) (g : α → β) :
    Overflowing infinite s ((x >>= fun a => pure (g a)).outcome s) := by
  obtain ⟨hresult, hstate⟩ := h
  rw [Attempt.outcome_bind]
  rcases hout : x.outcome s with ⟨f | a, s'⟩ <;> rw [hout] at hresult hstate
  · exact ⟨hresult.map g, hstate⟩
  · exact ⟨hresult.map g, hstate⟩

theorem observeMember_overflowing {room key : String} {entries : List (Value × Value)}
    (hroom : e.room = .text room) (hkey : e.stateKey = .text key)
    (hcontent : e.content = .map entries) (s : Store) :
    Overflowing false s ((observeMember e).outcome s) := by
  rw [observeMember, hcontent, Value.field_map, Attempt.outcome_bind, Attempt.outcome_ofResult,
    Attempt.follow_ok]
  split
  · rw [Attempt.outcome_bind, Attempt.outcome_ofResult]
    change Overflowing false s (Attempt.follow _ (.ok _, s))
    rw [Attempt.follow_ok, hroom, hkey, Attempt.outcome_bind,
      setMember_ok room (Key.ofValue?_text key)]
    exact overflowing_ok none s _
  · exact overflowing_ok _ s s

theorem observeLevels_overflowing {room : String} {entries : List (Value × Value)}
    (hroom : e.room = .text room) (hcontent : e.content = .map entries) (s : Store) :
    Overflowing (PowerLevels.isInfinite entries) s ((observeLevels e).outcome s) := by
  have hresult := PowerLevels.ofContent_overflows entries
  rw [observeLevels, hcontent, Attempt.outcome_bind, Attempt.outcome_ofResult]
  cases hinfinite : PowerLevels.isInfinite entries with
  | true =>
    rw [hinfinite] at hresult
    have hoverflow : PowerLevels.ofContent (.map entries) = .error .overflow := hresult
    rw [hoverflow]
    exact ⟨rfl, fun _ => rfl⟩
  | false =>
    rw [hinfinite] at hresult
    obtain ⟨levels, hlevels⟩ : ∃ levels, PowerLevels.ofContent (.map entries) = .ok levels :=
      hresult
    obtain ⟨finished, hfinished⟩ := levels.finish_draft_ok
    rw [hlevels, Attempt.follow_ok, hroom, setPowerLevels_ok hfinished]
    exact overflowing_ok () s _

/-- A valid event is taken in unless it overflows. -/
theorem observe_overflowing (h : e.validate = .ok ()) (s : Store) :
    Overflowing e.isInfinite s ((observe e).outcome s) := by
  obtain ⟨⟨room, hroom⟩, -, hkeys, entries, hcontent⟩ := Event.of_validate h
  rw [observe, Event.isInfinite, hcontent]
  rcases hkeys with hkey | ⟨key, hkey⟩
  · rw [hkey]
    exact overflowing_ok none s s
  · have hnull : ¬ (Value.text key).isNull := Bool.false_ne_true
    rw [hkey, if_neg hnull]
    dsimp only
    by_cases hlevels : e.isLevels
    · have hmember : ¬ e.type.same (.text EventType.member) := by
        rw [Event.isLevels_type hlevels, Value.text_same_text]
        decide
      rw [if_neg hmember, if_pos ((Event.isLevels_iff e).mp hlevels), hlevels, Bool.true_and]
      exact (observeLevels_overflowing hroom hcontent s).returning fun _ => none
    · have hfinite : (e.isLevels && PowerLevels.isInfinite entries) = false := by
        rw [Bool.eq_false_iff.mpr hlevels, Bool.false_and]
      rw [hfinite, if_neg fun hsame => hlevels ((Event.isLevels_iff e).mpr hsame)]
      split
      · exact observeMember_overflowing hroom hkey hcontent s
      · exact overflowing_ok none s s

/-- Valid events that do not overflow are followed by the others. -/
theorem absorbed_append {events : List Event}
    (h : ∀ e ∈ events, e.validate = .ok () ∧ e.isInfinite = false) (others : List Event)
    (s : Store) : s.absorbed (events ++ others) = (s.absorbed events).absorbed others := by
  induction events generalizing s with
  | nil => rfl
  | cons e events ih =>
    obtain ⟨hvalid, hfinite⟩ := h e List.mem_cons_self
    obtain ⟨hresult, -⟩ := observe_overflowing hvalid s
    rw [hfinite] at hresult
    obtain ⟨unknown, hunknown⟩ : ∃ unknown, ((observe e).outcome s).1 = .ok unknown := hresult
    rcases hout : (observe e).outcome s with ⟨r, s'⟩
    rw [hout] at hunknown
    dsimp only at hunknown
    rw [List.cons_append, absorbed, absorbed, hout, hunknown]
    exact ih (fun e' he' => h e' (List.mem_cons_of_mem e he')) s'

/-- The first one that overflows is not taken in, and neither is what comes after it. -/
theorem absorbed_overflow {before : List Event}
    (hbefore : ∀ x ∈ before, x.validate = .ok () ∧ x.isInfinite = false) (h : e.validate = .ok ())
    (hinfinite : e.isInfinite = true) (after : List Event) (s : Store) :
    s.absorbed (before ++ e :: after) = s.absorbed before := by
  obtain ⟨hresult, hleft⟩ := observe_overflowing h (s.absorbed before)
  rw [hinfinite] at hresult
  have hoverflow : ((observe e).outcome (s.absorbed before)).1 = .error .overflow := hresult
  rw [absorbed_append hbefore, absorbed]
  rcases hout : (observe e).outcome (s.absorbed before) with ⟨r, s'⟩
  rw [hout] at hoverflow hleft
  dsimp only at hoverflow hleft
  rw [hoverflow]
  exact hleft hinfinite

end Store

namespace Bridge

variable {e : Event} {events : List Event}

theorem observe_overflows (h : e.validate = .ok ()) (b : Bridge) :
    OverflowsIf e.isInfinite ((observe e).outcome b).1 := by
  obtain ⟨hresult, -⟩ := Store.observe_overflowing h b.store
  rcases hout : (Store.observe e).outcome b.store with ⟨r, s⟩
  obtain ⟨c, hobserved, -⟩ := outcome_observe hout
  rw [hout] at hresult
  rw [hobserved]
  cases r with
  | error f => exact hresult.map fun _ => ()
  | ok unknown => exact hresult.map fun _ => ()

/-- Of valid events the first one that overflows ends it, and without such a one all are taken
in. -/
theorem absorbEvents_result (h : ∀ e ∈ events, e.validate = .ok ()) (b : Bridge) :
    ((absorbEvents events).outcome b).1 =
      if events.any Event.isInfinite then .error .overflow else .ok (events.length : Int) := by
  have heach (b : Bridge) : ((((events.map Except.ok).forM fun r =>
      Attempt.ofResult r >>= observe).outcome b).1 : Except Failure PUnit) =
        if events.any Event.isInfinite then .error .overflow else .ok () := by
    induction events generalizing b with
    | nil => rfl
    | cons e events ih =>
      have he := observe_overflows (h e List.mem_cons_self) b
      rw [outcome_absorb_cons, List.any_cons]
      rcases hout : (observe e).outcome b with ⟨f | _, c⟩ <;> rw [hout] at he
      · obtain ⟨hinfinite, rfl⟩ := he.of_error
        rw [hinfinite]
        rfl
      · rw [he.of_ok, Bool.false_or]
        exact ih (fun e' he' => h e' (List.mem_cons_of_mem e he')) c
  have hall := heach b
  rw [absorbEvents, absorb, Attempt.outcome_bind]
  rcases hout : ((events.map Except.ok).forM fun r => Attempt.ofResult r >>= observe).outcome b
    with ⟨r, c⟩
  rw [hout] at hall
  dsimp only at hall
  rw [hall]
  split
  · rfl
  · rw [Attempt.follow_ok, List.length_map]
    rfl

end Bridge

end VirtualUsers
