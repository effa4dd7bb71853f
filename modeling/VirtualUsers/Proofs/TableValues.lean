import VirtualUsers.Proofs.RegistryPlaces
/-!
# Values in place of the table

What a document holds under the name of the table of its registry stays there. A table written as
one value is closed, so it can be another one without any change elsewhere; anything that is no
table stays none, and then there is no place for the array.
-/

namespace VirtualUsers.Registry

open Toml

variable {r r₁ : Reading} {l : Line} {d : Document} {path : List String} {v w : Toml}
  {entries entries' altered : List (String × Toml)} {f : Option Toml → Option Toml}

/-! ## A table as one value -/

/-- The tables differ in nothing but the value under the name of the table of the registry. -/
structure Apart (v w : Toml) (entries entries' : List (String × Toml)) : Prop where
  held : entries.lookup tableName = some v
  held' : entries'.lookup tableName = some w
  outside : ∀ key, key ≠ tableName → entries'.lookup key = entries.lookup key

/-- A change elsewhere. -/
theorem Apart.alter (h : Apart v w entries entries') (hpath : startsWith path [tableName] = false)
    (halter : alter f path entries = some altered) :
    ∃ altered', Toml.alter f path entries' = some altered' ∧ Apart v w altered altered' := by
  cases path with
  | nil => cases halter
  | cons name path =>
    have hname : name ≠ tableName := by
      rintro rfl
      simp [startsWith] at hpath
    rw [alter_cons] at halter
    obtain ⟨x, hx, rfl⟩ := Option.map_eq_some_iff.mp halter
    rw [alter_cons, h.outside name hname, hx]
    refine ⟨_, rfl, ?_, ?_, fun key hkey => ?_⟩
    · rw [lookup_put, if_neg hname.symm, h.held]
    · rw [lookup_put, if_neg hname.symm, h.held']
    · rw [lookup_put, lookup_put, h.outside key hkey]

theorem isClosed_table (h : [tableName] ∈ r.closed) (hpath : r.isClosed path = false) :
    startsWith path [tableName] = false := by
  rw [Reading.isClosed, List.any_eq_false] at hpath
  simpa using hpath _ h

/-- A line after the table is read the same, whatever is in the table. -/
theorem Apart.line (h : Apart v w r.entries entries') (hclosed : [tableName] ∈ r.closed)
    (hl : r.line l = some r₁) : ∃ altered',
      Reading.line { r with entries := entries' } l = some { r₁ with entries := altered' } ∧
        Apart v w r₁.entries altered' ∧ [tableName] ∈ r₁.closed := by
  cases l with
  | blank | comment =>
    cases hl
    exact ⟨entries', rfl, h, hclosed⟩
  | entry before path x written after =>
    obtain ⟨hway, hopen, entries, halter, rfl⟩ := enter_eq_some hl
    have hpath : startsWith (r.section_ ++ path) [tableName] = false := by
      cases hstart : startsWith (r.section_ ++ path) [tableName] with
      | false => rfl
      | true =>
        obtain ⟨rest, hfull⟩ := startsWith_iff.mp hstart
        have hinner := isClosed_table hclosed hopen
        rw [← hfull] at halter hinner
        cases rest with
        | nil =>
          rw [List.append_nil, alter_cons, alterAt, h.held] at halter
          cases halter
        | cons key rest => cases hinner
    obtain ⟨altered', halter', happart⟩ := h.alter hpath halter
    refine ⟨altered', enter_of (r := { r with entries := entries' }) hway hopen halter', happart,
      ?_⟩
    dsimp only
    split
    · exact List.mem_cons_of_mem _ hclosed
    · exact hclosed
  | header indent written path many after =>
    cases many with
    | false =>
      obtain ⟨hbegun, hopen, entries, halter, rfl⟩ := beginTable_eq_some hl
      obtain ⟨altered', halter', happart⟩ := h.alter (isClosed_table hclosed hopen) halter
      exact ⟨altered', beginTable_of (r := { r with entries := entries' }) hbegun hopen halter',
        happart, hclosed⟩
    | true =>
      obtain ⟨hopen, entries, halter, rfl⟩ := beginItem_eq_some hl
      have hpath := isClosed_table hclosed hopen
      obtain ⟨altered', halter', happart⟩ := h.alter hpath halter
      refine ⟨altered', beginItem_of (r := { r with entries := entries' }) hopen halter', happart,
        mem_others.mpr ⟨hclosed, ?_⟩⟩
      cases hstart : startsWith [tableName] path with
      | false => rfl
      | true =>
        rcases startsWith_single hstart with rfl | rfl
        · cases halter
        · simp [startsWith] at hpath

theorem Apart.run (h : Apart v w r.entries entries') (hclosed : [tableName] ∈ r.closed)
    (hd : d.foldlM Reading.line r = some r₁) : ∃ r₁',
      d.foldlM Reading.line { r with entries := entries' } = some r₁' ∧
        Apart v w r₁.entries r₁'.entries := by
  induction d generalizing r entries' with
  | nil =>
    cases hd
    exact ⟨_, rfl, h⟩
  | cons l d ih =>
    obtain ⟨r₀, hl, hd⟩ := foldlM_cons hd
    obtain ⟨altered', hl', happart, hclosed₀⟩ := h.line hclosed hl
    obtain ⟨r₁', hd', hlast⟩ := ih happart hclosed₀ hd
    refine ⟨r₁', ?_, hlast⟩
    rw [List.foldlM_cons, hl']
    exact hd'

/-! ## Values that are no tables -/

def Taken (entries : List (String × Toml)) : Prop :=
  ∃ v, entries.lookup tableName = some v ∧ ∀ inner, v ≠ .table inner

def SparesValues (f : Option Toml → Option Toml) : Prop :=
  ∀ v w, f (some v) = some w → (∀ inner, v ≠ .table inner) → ∀ inner, w ≠ .table inner

theorem sparesValues_enterTable : SparesValues Reading.enterTable := by
  intro v w h hv inner
  cases v with
  | table inner => exact absurd rfl (hv inner)
  | text | int | real | bool | moment => cases h
  | array items =>
    rw [Reading.enterTable] at h
    split at h
    · cases h
      simp
    · cases h

theorem sparesValues_enterItem : SparesValues Reading.enterItem := by
  intro v w h hv inner
  cases v with
  | text | int | real | bool | moment | table => cases h
  | array items =>
    cases h
    simp

theorem sparesValues_enterNew (v : Toml) : SparesValues (enterNew v) := by
  intro w w' h
  cases h

theorem Taken.alter (h : Taken entries) (hf : SparesValues f)
    (halter : alter f path entries = some altered) : Taken altered := by
  obtain ⟨v, hv, htable⟩ := h
  cases path with
  | nil => cases halter
  | cons name path =>
    rw [alter_cons] at halter
    obtain ⟨w, hw, rfl⟩ := Option.map_eq_some_iff.mp halter
    by_cases hname : tableName = name
    · subst hname
      refine ⟨w, by rw [lookup_put, if_pos rfl], ?_⟩
      rw [hv] at hw
      cases path with
      | nil => exact hf v w hw htable
      | cons key path =>
        cases v with
        | table inner => exact absurd rfl (htable inner)
        | text | int | real | bool | moment => cases hw
        | array items =>
          rw [alterAt] at hw
          · split at hw
            · obtain ⟨inner, -, rfl⟩ := Option.map_eq_some_iff.mp hw
              simp
            · cases hw
          · simp
    · exact ⟨v, by rw [lookup_put, if_neg hname, hv], htable⟩

theorem Taken.line (h : Taken r.entries) (hl : r.line l = some r₁) : Taken r₁.entries := by
  cases l with
  | blank | comment =>
    cases hl
    exact h
  | entry before path v written after =>
    obtain ⟨-, -, entries, halter, rfl⟩ := enter_eq_some hl
    exact h.alter (sparesValues_enterNew v) halter
  | header indent written path many after =>
    cases many with
    | false =>
      obtain ⟨-, -, entries, halter, rfl⟩ := beginTable_eq_some hl
      exact h.alter sparesValues_enterTable halter
    | true =>
      obtain ⟨-, entries, halter, rfl⟩ := beginItem_eq_some hl
      exact h.alter sparesValues_enterItem halter

theorem Taken.run (h : Taken r.entries) (hd : d.foldlM Reading.line r = some r₁) :
    Taken r₁.entries :=
  run_keeps (P := fun r => Taken r.entries) (Q := fun _ _ => True) (fun h _ => h.line) h
    (everywhere_of_forall (by simp) _) hd

/-- One more table of that name takes its place. -/
theorem taken_item (hl : r.line l = some r₁) (hitem : beginsItem [tableName] l = true) :
    Taken r₁.entries := by
  cases l with
  | blank | comment | entry => cases hitem
  | header indent written path many after =>
    have h : path = [tableName] ∧ many = true := by simpa [beginsItem] using hitem
    obtain ⟨rfl, rfl⟩ := h
    obtain ⟨-, entries, halter, rfl⟩ := beginItem_eq_some hl
    rw [alter_cons, alterAt] at halter
    obtain ⟨w, hw, rfl⟩ := Option.map_eq_some_iff.mp halter
    refine ⟨w, by rw [lookup_put, if_pos rfl], fun inner htable => ?_⟩
    subst htable
    unfold Reading.enterItem at hw
    split at hw
    all_goals cases hw

end VirtualUsers.Registry
