import VirtualUsers.Proofs.TablePaths
/-!
# Documents without the array

Lines that say something of the array of a registry can be left out of a document, and the array can
be entered once in their place: all other lines are read as before.
-/

namespace VirtualUsers.Registry

open Toml

variable {r r₁ r' : Reading} {l : Line} {d : Document} {path p : List String} {u : Option Toml}
  {section_ : List String} {opened : Bool}

/-! ## Paths -/

theorem startsWith_iff {path start : List String} : startsWith path start = true ↔ start <+: path :=
  List.isPrefixOf_iff_prefix

theorem startsWith_trans {a b c : List String} (hab : startsWith b a = true)
    (hbc : startsWith c b = true) : startsWith c a = true :=
  startsWith_iff.mpr ((startsWith_iff.mp hab).trans (startsWith_iff.mp hbc))

/-- A table on the way to a key lies between the section and the key. -/
theorem mem_waypoints (h : p ∈ Reading.waypoints section_ path) :
    section_.length < p.length ∧ startsWith (section_ ++ path) p = true := by
  induction path generalizing section_ with
  | nil => cases h
  | cons name path ih =>
    cases path with
    | nil => cases h
    | cons next path =>
      rw [Reading.waypoints] at h
      rcases List.mem_cons.mp h with rfl | h
      · exact ⟨by simp, startsWith_iff.mpr ⟨next :: path, by simp⟩⟩
      · obtain ⟨hlength, hstart⟩ := ih h
        rw [List.length_append] at hlength
        exact ⟨by omega, by simpa using hstart⟩

/-! ## What a line does -/

def closes : Toml → Bool
  | .array _ | .table _ => true
  | _ => false

theorem enter_eq_some {v : Toml} (h : r.enter path v = some r₁) :
    (∀ p ∈ Reading.waypoints r.section_ path, p ∉ r.begun) ∧
      r.isClosed (r.section_ ++ path).dropLast = false ∧
      ∃ entries, alter (enterNew v) (r.section_ ++ path) r.entries = some entries ∧
        r₁ = { r with
          entries
          closed := if closes v then (r.section_ ++ path) :: r.closed else r.closed
          beginning := Reading.waypoints r.section_ path ++ r.beginning } := by
  simp only [Reading.enter] at h
  split at h
  · cases h
  · next hfree =>
    obtain ⟨entries, halter, h⟩ := Option.bind_eq_some_iff.mp h
    cases h
    rw [Bool.not_eq_true, Bool.or_eq_false_iff, List.any_eq_false] at hfree
    refine ⟨fun p hp hmem => hfree.1 p hp (List.contains_iff_mem.mpr hmem), hfree.2, entries,
      halter, ?_⟩
    cases v <;> rfl

theorem enter_of {v : Toml} {entries : List (String × Toml)}
    (hway : ∀ p ∈ Reading.waypoints r.section_ path, p ∉ r.begun)
    (hclosed : r.isClosed (r.section_ ++ path).dropLast = false)
    (halter : alter (enterNew v) (r.section_ ++ path) r.entries = some entries) :
    r.enter path v = some { r with
      entries
      closed := if closes v then (r.section_ ++ path) :: r.closed else r.closed
      beginning := Reading.waypoints r.section_ path ++ r.beginning } := by
  have hany : (Reading.waypoints r.section_ path).any r.begun.contains = false := by
    rw [List.any_eq_false]
    exact fun p hp hmem => hway p hp (List.contains_iff_mem.mp hmem)
  simp only [Reading.enter]
  rw [hany, hclosed, if_neg (by simp), halter]
  cases v <;> rfl

theorem beginTable_eq_some (h : r.beginTable path = some r₁) :
    path ∉ r.beginning ++ r.begun ∧ r.isClosed path = false ∧
      ∃ entries, alter Reading.enterTable path r.entries = some entries ∧
        r₁ = { r with
          entries, section_ := path, begun := path :: (r.beginning ++ r.begun)
          beginning := [] } := by
  simp only [Reading.beginTable] at h
  split at h
  · cases h
  · next hfree =>
    obtain ⟨entries, halter, h⟩ := Option.bind_eq_some_iff.mp h
    cases h
    rw [Bool.not_eq_true, Bool.or_eq_false_iff] at hfree
    refine ⟨fun hmem => ?_, hfree.2, entries, halter, rfl⟩
    rw [List.contains_iff_mem.mpr hmem] at hfree
    cases hfree.1

theorem beginTable_of {entries : List (String × Toml)} (hbegun : path ∉ r.beginning ++ r.begun)
    (hclosed : r.isClosed path = false)
    (halter : alter Reading.enterTable path r.entries = some entries) :
    r.beginTable path = some { r with
      entries, section_ := path, begun := path :: (r.beginning ++ r.begun), beginning := [] } := by
  have hcontains : (r.beginning ++ r.begun).contains path = false := by
    simpa using hbegun
  simp only [Reading.beginTable]
  rw [hcontains, hclosed, if_neg (by simp), halter]
  rfl

def others (path : List String) (paths : List (List String)) : List (List String) :=
  paths.filter fun p => !startsWith p path

theorem beginItem_eq_some (h : r.beginItem path = some r₁) : r.isClosed path = false ∧
    ∃ entries, alter Reading.enterItem path r.entries = some entries ∧
      r₁ = { r with
        entries, section_ := path, begun := path :: others path (r.beginning ++ r.begun)
        beginning := [], closed := others path r.closed } := by
  simp only [Reading.beginItem] at h
  split at h
  · cases h
  · next hclosed =>
    obtain ⟨entries, halter, h⟩ := Option.bind_eq_some_iff.mp h
    cases h
    exact ⟨by simpa using hclosed, entries, halter, rfl⟩

theorem beginItem_of {entries : List (String × Toml)} (hclosed : r.isClosed path = false)
    (halter : alter Reading.enterItem path r.entries = some entries) :
    r.beginItem path = some { r with
      entries, section_ := path, begun := path :: others path (r.beginning ++ r.begun)
      beginning := [], closed := others path r.closed } := by
  simp only [Reading.beginItem]
  rw [hclosed, if_neg (by simp), halter]
  rfl

/-! ## Reading with less -/

/-- A path that nothing outside the array asks for. Once the table was begun by a line that the
first document does not have, that is so for its path as well. -/
def Idle (opened : Bool) (p : List String) : Prop :=
  startsWith p usersPath = true ∨ opened = true ∧ p = [tableName]

/-- The second document was read as far as the first one, but for what is said of the array. -/
structure Shadow (opened : Bool) (u : Option Toml) (r r' : Reading) : Prop where
  entries : Like u r.entries r'.entries
  section_ : startsWith r.section_ usersPath = true ∨ r'.section_ = r.section_
  inside : opened = true → r.section_ ≠ []
  begun : ∀ p ∈ r'.begun, Idle opened p ∨ p ∈ r.begun
  beginning : ∀ p ∈ r'.beginning, Idle opened p ∨ p ∈ r.beginning ∨ p ∈ r.begun
  closed : ∀ p ∈ r'.closed, startsWith p usersPath = true ∨ p ∈ r.closed

/-- The line, in a section, neither puts something in the place of the table nor, if the table was
begun before, begins it. -/
def Spares (opened : Bool) (section_ : List String) : Line → Prop
  | .entry _ path _ _ _ => section_ ++ path ≠ [tableName]
  | .header _ _ path many _ => many = true ∨ opened = true → path ≠ [tableName]
  | _ => True

/-- The lines, from a section on, have the property there. -/
def Everywhere (P : List String → Line → Prop) : List String → Document → Prop
  | _, [] => True
  | section_, l :: rest =>
    P (l.sectionFrom section_) l ∧ Everywhere P (l.sectionFrom section_) rest

theorem Shadow.isClosed (h : Shadow opened u r r') (hclosed : r.isClosed path = false)
    (hpath : startsWith path usersPath = false) : r'.isClosed path = false := by
  rw [Reading.isClosed, List.any_eq_false] at hclosed ⊢
  intro p hp hstart
  rcases h.closed p hp with husers | hp
  · rw [startsWith_trans husers hstart] at hpath
    cases hpath
  · exact hclosed p hp hstart

theorem Shadow.enter (h : Shadow opened u r r') {v : Toml}
    (hkeep : startsWith (r.section_ ++ path) usersPath = false)
    (hspares : r.section_ ++ path ≠ [tableName]) (hl : r.enter path v = some r₁) :
    ∃ r₁', r'.enter path v = some r₁' ∧ Shadow opened u r₁ r₁' := by
  obtain ⟨hway, hclosed, entries, halter, rfl⟩ := enter_eq_some hl
  have hsection : r'.section_ = r.section_ := by
    refine h.section_.resolve_left fun husers => ?_
    rw [startsWith_trans husers (startsWith_iff.mpr ⟨path, rfl⟩)] at hkeep
    cases hkeep
  have hidle {p : List String} (hp : p ∈ Reading.waypoints r.section_ path) : ¬Idle opened p := by
    obtain ⟨hlength, hstart⟩ := mem_waypoints hp
    rintro (husers | ⟨hopened, rfl⟩)
    · rw [startsWith_trans husers hstart] at hkeep
      cases hkeep
    · have hsome := List.length_pos_iff.mpr (h.inside hopened)
      rw [List.length_singleton] at hlength
      omega
  have hdropLast : startsWith (r.section_ ++ path).dropLast usersPath = false := by
    cases hstart : startsWith (r.section_ ++ path).dropLast usersPath with
    | false => rfl
    | true =>
      rw [startsWith_trans hstart (startsWith_iff.mpr (List.dropLast_prefix _))] at hkeep
      cases hkeep
  obtain ⟨entries', halter', hlike⟩ :=
    h.entries.alter hkeep (fun htable => absurd htable hspares) halter
  rw [← hsection] at halter'
  refine ⟨_, enter_of (fun p hp hmem => ?_) ?_ halter', hlike, .inr hsection, h.inside, h.begun, ?_,
    ?_⟩
  · rw [hsection] at hp
    exact (h.begun p hmem).elim (hidle hp) (hway p hp)
  · rw [hsection]
    exact h.isClosed hclosed hdropLast
  · intro p hp
    rw [hsection] at hp
    rcases List.mem_append.mp hp with hp | hp
    · exact .inr (.inl (List.mem_append_left _ hp))
    · rcases h.beginning p hp with hidle | hp | hp
      · exact .inl hidle
      · exact .inr (.inl (List.mem_append_right _ hp))
      · exact .inr (.inr hp)
  · intro p hp
    rw [hsection] at hp
    dsimp only at hp ⊢
    split at hp
    · next hcloses =>
      rw [if_pos hcloses]
      rcases List.mem_cons.mp hp with rfl | hp
      · exact .inr List.mem_cons_self
      · exact (h.closed p hp).imp_right (List.mem_cons_of_mem _)
    · next hcloses =>
      rw [if_neg hcloses]
      exact h.closed p hp

theorem Shadow.mem_begun (h : Shadow opened u r r') (hp : p ∈ r'.beginning ++ r'.begun) :
    Idle opened p ∨ p ∈ r.beginning ++ r.begun := by
  rw [List.mem_append]
  rcases List.mem_append.mp hp with hp | hp
  · exact h.beginning p hp
  · exact (h.begun p hp).imp_right .inr

theorem ne_nil_of_alter {f : Option Toml → Option Toml} {entries altered : List (String × Toml)}
    (h : alter f path entries = some altered) : path ≠ [] := by
  rintro rfl
  cases h

theorem Shadow.beginTable (h : Shadow opened u r r') (hkeep : startsWith path usersPath = false)
    (hspares : opened = true → path ≠ [tableName]) (hl : r.beginTable path = some r₁) :
    ∃ r₁', r'.beginTable path = some r₁' ∧ Shadow opened u r₁ r₁' := by
  obtain ⟨hbegun, hclosed, entries, halter, rfl⟩ := beginTable_eq_some hl
  have hidle : ¬Idle opened path := by
    rintro (husers | ⟨hopened, hpath⟩)
    · rw [hkeep] at husers
      cases husers
    · exact hspares hopened hpath
  obtain ⟨entries', halter', hlike⟩ := h.entries.alter hkeep (fun _ => rfl) halter
  refine ⟨_, beginTable_of (fun hmem => ?_) (h.isClosed hclosed hkeep) halter', hlike, .inr rfl,
    fun _ => ne_nil_of_alter halter, ?_, by simp, h.closed⟩
  · exact (h.mem_begun hmem).elim hidle hbegun
  · intro p hp
    rcases List.mem_cons.mp hp with rfl | hp
    · exact .inr List.mem_cons_self
    · exact (h.mem_begun hp).imp_right (List.mem_cons_of_mem _)

theorem mem_others {path p : List String} {paths : List (List String)} :
    p ∈ others path paths ↔ p ∈ paths ∧ startsWith p path = false := by
  simp [others]

theorem Shadow.beginItem (h : Shadow opened u r r') (hkeep : startsWith path usersPath = false)
    (hspares : path ≠ [tableName]) (hl : r.beginItem path = some r₁) :
    ∃ r₁', r'.beginItem path = some r₁' ∧ Shadow opened u r₁ r₁' := by
  obtain ⟨hclosed, entries, halter, rfl⟩ := beginItem_eq_some hl
  obtain ⟨entries', halter', hlike⟩ :=
    h.entries.alter hkeep (fun htable => absurd htable hspares) halter
  refine ⟨_, beginItem_of (h.isClosed hclosed hkeep) halter', hlike, .inr rfl,
    fun _ => ne_nil_of_alter halter, ?_, by simp, ?_⟩
  · intro p hp
    rcases List.mem_cons.mp hp with rfl | hp
    · exact .inr List.mem_cons_self
    · obtain ⟨hp, hother⟩ := mem_others.mp hp
      exact (h.mem_begun hp).imp_right fun hp =>
        List.mem_cons_of_mem _ (mem_others.mpr ⟨hp, hother⟩)
  · intro p hp
    obtain ⟨hp, hother⟩ := mem_others.mp hp
    exact (h.closed p hp).imp_right fun hp => mem_others.mpr ⟨hp, hother⟩

theorem section_line (h : r.line l = some r₁) : r₁.section_ = l.sectionFrom r.section_ := by
  cases l with
  | blank | comment =>
    cases h
    rfl
  | entry before path v written after =>
    obtain ⟨-, -, entries, -, rfl⟩ := enter_eq_some h
    rfl
  | header indent written path many after =>
    cases many with
    | false =>
      obtain ⟨-, -, entries, -, rfl⟩ := beginTable_eq_some h
      rfl
    | true =>
      obtain ⟨-, entries, -, rfl⟩ := beginItem_eq_some h
      rfl

/-- A line that says nothing of the array. -/
theorem Shadow.keep (h : Shadow opened u r r')
    (hkeep : concerns (l.sectionFrom r.section_) l = false)
    (hspares : Spares opened (l.sectionFrom r.section_) l) (hl : r.line l = some r₁) :
    ∃ r₁', r'.line l = some r₁' ∧ Shadow opened u r₁ r₁' := by
  cases l with
  | blank | comment =>
    cases hl
    exact ⟨r', rfl, h⟩
  | entry before path v written after => exact h.enter hkeep hspares hl
  | header indent written path many after =>
    have hpath : startsWith path usersPath = false := by
      simpa [concerns, Line.sectionFrom, Line.headerPath?, Line.entryPath?] using hkeep
    cases many with
    | false => exact h.beginTable hpath (fun hopened => hspares (.inr hopened)) hl
    | true => exact h.beginItem hpath (hspares (.inl rfl)) hl

/-- A line that says something of the array, left out of the second document. -/
theorem Shadow.drop (h : Shadow opened u r r')
    (hdrop : concerns (l.sectionFrom r.section_) l = true) (hl : r.line l = some r₁) :
    Shadow opened u r₁ r' := by
  cases l with
  | blank | comment =>
    cases hl
    exact h
  | entry before path v written after =>
    obtain ⟨-, -, entries, halter, rfl⟩ := enter_eq_some hl
    refine ⟨h.entries.alter_users hdrop halter, h.section_, h.inside, h.begun, fun p hp => ?_,
      fun p hp => ?_⟩
    · rcases h.beginning p hp with hidle | hp | hp
      · exact .inl hidle
      · exact .inr (.inl (List.mem_append_right _ hp))
      · exact .inr (.inr hp)
    · refine (h.closed p hp).imp_right fun hp => ?_
      dsimp only
      split
      · exact List.mem_cons_of_mem _ hp
      · exact hp
  | header indent written path many after =>
    have hpath : startsWith path usersPath = true := by
      simpa [concerns, Line.sectionFrom, Line.headerPath?, Line.entryPath?] using hdrop
    have hnone : path ≠ [] := by
      rintro rfl
      cases hpath
    cases many with
    | false =>
      obtain ⟨-, -, entries, halter, rfl⟩ := beginTable_eq_some hl
      refine ⟨h.entries.alter_users hpath halter, .inl hpath, fun _ => hnone, fun p hp => ?_,
        fun p hp => ?_, h.closed⟩
      · exact (h.begun p hp).imp_right fun hp =>
          List.mem_cons_of_mem _ (List.mem_append_right _ hp)
      · refine (h.beginning p hp).imp_right fun hp => .inr ?_
        exact List.mem_cons_of_mem _ (List.mem_append.mpr hp)
    | true =>
      obtain ⟨-, entries, halter, rfl⟩ := beginItem_eq_some hl
      -- What is forgotten of the last item is within the array.
      have hother {p : List String} {paths : List (List String)} (hp : p ∈ paths) :
          startsWith p usersPath = true ∨ p ∈ others path paths := by
        cases hstart : startsWith p path with
        | true => exact .inl (startsWith_trans hpath hstart)
        | false => exact .inr (mem_others.mpr ⟨hp, hstart⟩)
      have hbegun {p : List String} (hp : p ∈ r.beginning ++ r.begun) :
          Idle opened p ∨ p ∈ path :: others path (r.beginning ++ r.begun) :=
        (hother hp).imp .inl (List.mem_cons_of_mem path)
      refine ⟨h.entries.alter_users hpath halter, .inl hpath, fun _ => hnone, fun p hp => ?_,
        fun p hp => ?_, fun p hp => ?_⟩
      · exact (h.begun p hp).elim .inl fun hp => hbegun (List.mem_append_right _ hp)
      · exact (h.beginning p hp).elim .inl fun hp =>
          (hbegun (List.mem_append.mpr hp)).imp_right .inr
      · exact (h.closed p hp).elim .inl hother

theorem everywhere_cons {P : List String → Line → Prop} : Everywhere P section_ (l :: d) ↔
    P (l.sectionFrom section_) l ∧ Everywhere P (l.sectionFrom section_) d :=
  Iff.rfl

theorem foldlM_cons {l : Line} {d : Document} (h : (l :: d).foldlM Reading.line r = some r₁) :
    ∃ r₀, r.line l = some r₀ ∧ d.foldlM Reading.line r₀ = some r₁ := by
  rw [List.foldlM_cons] at h
  exact Option.bind_eq_some_iff.mp h

/-- All lines that say nothing of the array. -/
theorem Shadow.run (h : Shadow opened u r r') (hspares : Everywhere (Spares opened) r.section_ d)
    (hd : d.foldlM Reading.line r = some r₁) :
    ∃ r₁', (withoutUsers r.section_ d).foldlM Reading.line r' = some r₁' ∧
      Shadow opened u r₁ r₁' := by
  -- Each line is kept and does the same to both, or left out and changes what is idle.
  induction d generalizing r r' with
  | nil =>
    cases hd
    exact ⟨r', rfl, h⟩
  | cons l d ih =>
    obtain ⟨r₀, hl, hd⟩ := foldlM_cons hd
    obtain ⟨hline, hothers⟩ := hspares
    have hsection := section_line hl
    rw [withoutUsers]
    cases hconcerns : concerns (l.sectionFrom r.section_) l with
    | true =>
      rw [if_pos rfl, ← hsection]
      exact ih (h.drop hconcerns hl) (hsection ▸ hothers) hd
    | false =>
      obtain ⟨r₀', hl', h₀⟩ := h.keep hconcerns hline hl
      obtain ⟨r₁', hrest, h₁⟩ := ih h₀ (hsection ▸ hothers) hd
      rw [if_neg (by simp), ← hsection]
      refine ⟨r₁', ?_, h₁⟩
      rw [List.foldlM_cons, hl']
      exact hrest

/-! ## Runs -/

def sectionAfter (section_ : List String) (d : Document) : List String :=
  d.foldl (fun section_ l => l.sectionFrom section_) section_

theorem everywhere_append {P : List String → Line → Prop} {d' : Document} :
    Everywhere P section_ (d ++ d') ↔
      Everywhere P section_ d ∧ Everywhere P (sectionAfter section_ d) d' := by
  induction d generalizing section_ with
  | nil => exact ⟨fun h => ⟨trivial, h⟩, fun h => h.2⟩
  | cons l d ih =>
    rw [List.cons_append, everywhere_cons, everywhere_cons, ih, and_assoc]
    rfl

theorem Everywhere.imp {P Q : List String → Line → Prop} (h : Everywhere P section_ d)
    (hPQ : ∀ section_ l, P section_ l → Q section_ l) : Everywhere Q section_ d := by
  induction d generalizing section_ with
  | nil => trivial
  | cons l d ih => exact ⟨hPQ _ _ h.1, ih h.2⟩

theorem foldlM_append {d' : Document} (h : (d ++ d').foldlM Reading.line r = some r₁) :
    ∃ r₀, d.foldlM Reading.line r = some r₀ ∧ d'.foldlM Reading.line r₀ = some r₁ := by
  rw [List.foldlM_append] at h
  exact Option.bind_eq_some_iff.mp h

/-- What each line keeps is kept by all of them. -/
theorem run_keeps {P : Reading → Prop} {Q : List String → Line → Prop}
    (hstep : ∀ {r l r₁}, P r → Q (l.sectionFrom r.section_) l → Reading.line r l = some r₁ → P r₁)
    (hr : P r) (hQ : Everywhere Q r.section_ d) (hd : d.foldlM Reading.line r = some r₁) :
    P r₁ := by
  induction d generalizing r with
  | nil =>
    cases hd
    exact hr
  | cons l d ih =>
    obtain ⟨r₀, hl, hd⟩ := foldlM_cons hd
    exact ih (hstep hr hQ.1 hl) (section_line hl ▸ hQ.2) hd

theorem section_run (hd : d.foldlM Reading.line r = some r₁) :
    r₁.section_ = sectionAfter r.section_ d := by
  induction d generalizing r with
  | nil =>
    cases hd
    rfl
  | cons l d ih =>
    obtain ⟨r₀, hl, hd⟩ := foldlM_cons hd
    rw [ih hd, section_line hl]
    rfl

def Unsealed (r : Reading) : Prop :=
  ∀ p ∈ r.closed, startsWith [tableName] p = false

theorem startsWith_single {name : String} (h : startsWith [name] p = true) :
    p = [] ∨ p = [name] := by
  obtain ⟨rest, hrest⟩ := startsWith_iff.mp h
  cases p with
  | nil => exact .inl rfl
  | cons first p =>
    obtain ⟨rfl, hnil⟩ := List.cons.inj hrest
    rw [List.append_eq_nil_iff.mp hnil |>.1]
    exact .inr rfl

theorem Unsealed.line (h : Unsealed r) (hspares : Spares opened (l.sectionFrom r.section_) l)
    (hl : r.line l = some r₁) : Unsealed r₁ := by
  cases l with
  | blank | comment =>
    cases hl
    exact h
  | entry before path v written after =>
    obtain ⟨-, -, entries, halter, rfl⟩ := enter_eq_some hl
    have hfull : startsWith [tableName] (r.section_ ++ path) = false := by
      cases hstart : startsWith [tableName] (r.section_ ++ path) with
      | false => rfl
      | true =>
        rcases startsWith_single hstart with hnil | hone
        · exact absurd hnil (ne_nil_of_alter halter)
        · exact absurd hone hspares
    intro p hp
    dsimp only at hp
    split at hp
    · rcases List.mem_cons.mp hp with rfl | hp
      · exact hfull
      · exact h p hp
    · exact h p hp
  | header indent written path many after =>
    cases many with
    | false =>
      obtain ⟨-, -, entries, -, rfl⟩ := beginTable_eq_some hl
      exact h
    | true =>
      obtain ⟨-, entries, -, rfl⟩ := beginItem_eq_some hl
      exact fun p hp => h p (mem_others.mp hp).1

theorem Shadow.unsealed (h : Shadow opened u r r') (hr : Unsealed r) : Unsealed r' := by
  intro p hp
  rcases h.closed p hp with husers | hp
  · obtain ⟨rest, rfl⟩ := startsWith_users husers
    rfl
  · exact hr p hp

theorem Unsealed.isClosed (h : Unsealed r) : r.isClosed [tableName] = false := by
  rw [Reading.isClosed, List.any_eq_false]
  exact fun p hp => by simp [h p hp]

end VirtualUsers.Registry
