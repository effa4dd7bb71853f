import Mathlib.Data.List.Induction
import VirtualUsers.Proofs.Levels
/-!
# Levels edited in a row

Any number of edits, one after another, on the values of a power level record. Main statement: the
last level that is given to a user is the user's level, who is given none keeps what they had, and
of the users who are given one just those have an entry whose level is not the default of the room.
-/

namespace VirtualUsers.PowerLevels

def lastGiven? (user : String) (edits : List (String × Int)) : Option Int :=
  edits.reverse.lookup user

def edited (l : PowerLevels) (edits : List (String × Int)) : PowerLevels :=
  edits.foldl (fun l e => l.grant e.1 e.2) l

def Draft.entry? (user : String) (d : Draft) : Option Value :=
  match d.users with
  | .map entries => Draft.lookup (.text user) entries
  | _ => none

def Draft.setUserLevels (d : Draft) (edits : List (String × Int)) : Except Failure Draft :=
  edits.foldlM (fun d e => d.setUserLevel (.text e.1) (.int e.2)) d

variable (user : String) (l : PowerLevels)

/-! ## A row of edits -/

theorem edited_append (edits more : List (String × Int)) :
    l.edited (edits ++ more) = (l.edited edits).edited more :=
  List.foldl_append

theorem lastGiven?_concat (edits : List (String × Int)) (e : String × Int) :
    lastGiven? user (edits ++ [e]) = if user = e.1 then some e.2 else lastGiven? user edits := by
  obtain ⟨name, n⟩ := e
  rw [lastGiven?, List.reverse_append, List.reverse_singleton, List.singleton_append,
    List.lookup_cons]
  by_cases h : user = name
  · rw [if_pos h, beq_iff_eq.mpr h]
  · rw [if_neg h, beq_false_of_ne h]
    rfl

theorem lastGiven?_isSome (edits : List (String × Int)) :
    (lastGiven? user edits).isSome ↔ user ∈ edits.map Prod.fst := by
  induction edits using List.reverseRecOn with
  | nil => simp [lastGiven?]
  | append_singleton edits e ih =>
    rw [lastGiven?_concat, List.map_append, List.mem_append, ← ih, List.map_singleton,
      List.mem_singleton]
    split
    · next h => simp [h]
    · next h => simp [h]

/-- Nothing but the users is edited. -/
theorem edited_rest (edits : List (String × Int)) :
    l.edited edits = { l with users := (l.edited edits).users } := by
  induction edits using List.reverseRecOn with
  | nil => rfl
  | append_singleton edits e ih =>
    rw [edited_append]
    change (l.edited edits).grant e.1 e.2 =
      { l with users := ((l.edited edits).grant e.1 e.2).users }
    rw [(differsAt_grant e.1 e.2 (l.edited edits)).rest, ih]

theorem usersDefault_edited (edits : List (String × Int)) :
    (l.edited edits).usersDefault = l.usersDefault := by
  rw [edited_rest]

/-- A user who is given a level has that as an entry, unless it is the default. All others keep
theirs, also one that says no more than the default. -/
theorem lookup_edited (edits : List (String × Int)) :
    (l.edited edits).users.lookup user =
      match lastGiven? user edits with
      | some level => if level = l.usersDefault then none else some level
      | none => l.users.lookup user := by
  -- The last edit decides for its own user, and for the others the ones before it do.
  induction edits using List.reverseRecOn with
  | nil => rfl
  | append_singleton edits e ih =>
    rw [edited_append, lastGiven?_concat]
    change ((l.edited edits).grant e.1 e.2).users.lookup user = _
    rw [lookup_grant, usersDefault_edited, ih]
    by_cases h : user = e.1
    · rw [if_pos h, if_pos h]
    · rw [if_neg h, if_neg h]

theorem userLevel_edited (edits : List (String × Int)) :
    (l.edited edits).userLevel user = (lastGiven? user edits).getD (l.userLevel user) := by
  rw [userLevel, lookup_edited, usersDefault_edited, userLevel]
  cases lastGiven? user edits with
  | none => rfl
  | some level =>
    by_cases h : level = l.usersDefault
    · simp [h]
    · simp [h]

/-! ## The values of a draft -/

/-- A row of edits of the values is one of the levels. It never fails. -/
theorem setUserLevels_draft (edits : List (String × Int)) :
    l.draft.setUserLevels edits = .ok (l.edited edits).draft := by
  induction edits generalizing l with
  | nil => rfl
  | cons e edits ih =>
    rw [Draft.setUserLevels, List.foldlM_cons, setUserLevel_draft]
    exact ih (l.grant e.1 e.2)

theorem entry?_draft : l.draft.entry? user = (l.users.lookup user).map .int := by
  rw [Draft.entry?, draft, levelMap_eq]
  exact lookup_entries user l.users

/-- Of levels that are edited in a row the last one that is given to a user counts, and no edit
leaves an entry that says no more than the default. -/
theorem edits_last_and_minimal (edits : List (String × Int)) :
    ∃ d, l.draft.setUserLevels edits = .ok d ∧
      (∀ user, d.userLevel (.text user) =
        .ok (.int ((lastGiven? user edits).getD (l.userLevel user)))) ∧
      d = { l.draft with users := d.users } ∧
      (∀ user ∈ edits.map Prod.fst, (d.entry? user).isSome ↔
        d.userLevel (.text user) ≠ .ok d.usersDefault) ∧
      ∀ user ∉ edits.map Prod.fst, d.entry? user = l.draft.entry? user := by
  refine ⟨(l.edited edits).draft, setUserLevels_draft l edits, fun user => ?_, ?_,
    fun user huser => ?_, fun user huser => ?_⟩
  · rw [userLevel_draft, userLevel_edited]
  · rw [edited_rest]
    rfl
  · obtain ⟨level, hlevel⟩ := Option.isSome_iff_exists.mp ((lastGiven?_isSome user edits).mpr huser)
    have hdefault : (l.edited edits).draft.usersDefault = .int l.usersDefault :=
      congrArg Value.int (usersDefault_edited l edits)
    rw [entry?_draft, lookup_edited, userLevel_draft, userLevel_edited, hdefault, hlevel]
    by_cases h : level = l.usersDefault
    · simp [h]
    · simp [h]
  · have hnone : lastGiven? user edits = none :=
      Option.not_isSome_iff_eq_none.mp fun h => huser ((lastGiven?_isSome user edits).mp h)
    rw [entry?_draft, entry?_draft, lookup_edited, hnone]

/-- An entry that says no more than the default goes with the first edit for its user, and stays
without one. -/
theorem edits_drop_redundant :
    ∃ d, ({ users := [("@a:x", 0), ("@b:x", 0)] } : PowerLevels).draft.setUserLevels
        [("@a:x", 5), ("@a:x", 0)] = .ok d ∧
      ¬ (d.entry? "@a:x").isSome ∧ d.entry? "@b:x" = some (.int 0) := by
  obtain ⟨d, hd, hlevel, hrest, hminimal, hkept⟩ :=
    edits_last_and_minimal { users := [("@a:x", 0), ("@b:x", 0)] } [("@a:x", 5), ("@a:x", 0)]
  refine ⟨d, hd, fun h => (hminimal "@a:x" (by decide)).mp h ?_, ?_⟩
  · rw [hlevel, hrest]
    rfl
  · rw [hkept "@b:x" (by decide), entry?_draft]
    rfl

end VirtualUsers.PowerLevels
