import VirtualUsers.Proofs.Omissions
/-!
# The array in its place

The array can be entered in a section from which its path is reached, or in a new section of the
table where none was begun. What comes after it is read as before, and the document has the array.
-/

namespace VirtualUsers.Registry

open Toml

variable {r r₁ r' : Reading} {l : Line} {d : Document} {path : List String} {u : Option Toml}
  {section_ : List String} {opened : Bool}

/-! ## The array in its place -/

variable {v : Toml}

/-- The array is entered in a section from which its path is reached. The table that is entered on
the way was entered in the first document as well. -/
theorem Shadow.insert (h : Shadow opened none r r') (hr : Unsealed r) (hpath : path ≠ [])
    (hfull : r.section_ ++ path = usersPath)
    (hway : ∀ p ∈ Reading.waypoints r.section_ path,
      p ∉ r'.begun ∧ (p ∈ r.beginning ∨ p ∈ r.begun)) (v : Toml) :
    ∃ r₁', r'.enter path v = some r₁' ∧ Shadow opened (some v) r r₁' := by
  have hsection : r'.section_ = r.section_ := by
    refine h.section_.resolve_left fun husers => ?_
    obtain ⟨rest, hrest⟩ := startsWith_users husers
    rw [hrest] at hfull
    obtain ⟨name, path, rfl⟩ := List.exists_cons_of_ne_nil hpath
    simp [usersPath] at hfull
  obtain ⟨entries', halter, hlike⟩ := h.entries.enter_users v
  rw [← hfull, ← hsection] at halter
  refine ⟨_, enter_of (fun p hp => ?_) ?_ halter, hlike, .inr hsection, h.inside, h.begun,
    fun p hp => ?_, fun p hp => ?_⟩
  · rw [hsection] at hp
    exact (hway p hp).1
  · rw [hsection, hfull]
    exact (h.unsealed hr).isClosed
  · rw [hsection] at hp
    rcases List.mem_append.mp hp with hp | hp
    · exact .inr (hway p hp).2
    · exact h.beginning p hp
  · rw [hsection, hfull] at hp
    dsimp only at hp
    split at hp
    · rcases List.mem_cons.mp hp with rfl | hp
      · exact .inl rfl
      · exact h.closed p hp
    · exact h.closed p hp

def upToHeader (section_ : List String) (r : Reading) : Reading :=
  { r with section_, begun := r.beginning ++ r.begun, beginning := [] }

/-- The table is begun where it was not begun before. -/
theorem Shadow.insert_table (h : Shadow false u r r') (hr : Unsealed r)
    (hbegun : [tableName] ∉ r.beginning ++ r.begun) :
    ∃ r₁', r'.beginTable [tableName] = some r₁' ∧
      Shadow true u (upToHeader [tableName] r) r₁' := by
  have hidle {p : List String} (hp : Idle false p) : Idle true p :=
    hp.imp_right fun hp => absurd hp.1 (by decide)
  obtain ⟨entries', halter, hlike⟩ := h.entries.enter_table
  refine ⟨_, beginTable_of (fun hmem => ?_) (h.unsealed hr).isClosed halter, hlike, .inr rfl,
    fun _ => List.cons_ne_nil _ _, fun p hp => ?_, by simp, h.closed⟩
  · rcases h.mem_begun hmem with (husers | ⟨hopened, -⟩) | hmem
    · cases husers
    · cases hopened
    · exact hbegun hmem
  · rcases List.mem_cons.mp hp with rfl | hp
    · exact .inl (.inr ⟨rfl, rfl⟩)
    · exact (h.mem_begun hp).imp_left hidle

/-- A header does not depend on the section before it. -/
theorem line_upToHeader (h : l.isHeader = true) (section_ : List String) (r : Reading) :
    (upToHeader section_ r).line l = r.line l := by
  cases l with
  | blank | comment | entry => cases h
  | header indent written path many after => cases many <;> rfl

theorem run_upToHeader (h : ∀ l ∈ d.head?, l.isHeader = true)
    (hd : d.foldlM Reading.line r = some r₁) (section_ : List String) :
    ∃ r₂, d.foldlM Reading.line (upToHeader section_ r) = some r₂ ∧ r₂.entries = r₁.entries := by
  cases d with
  | nil =>
    cases hd
    exact ⟨_, rfl, rfl⟩
  | cons l d =>
    rw [List.foldlM_cons, ← line_upToHeader (h l rfl) section_] at hd
    exact ⟨r₁, hd, rfl⟩

/-! ## The new lines -/

theorem run_blank (h : ∀ l ∈ d, l.isBlank = true) (r : Reading) :
    d.foldlM Reading.line r = some r := by
  induction d with
  | nil => rfl
  | cons l d ih =>
    have hl : r.line l = some r := by
      cases l with
      | blank => rfl
      | comment | entry | header => cases h _ List.mem_cons_self
    rw [List.foldlM_cons, hl]
    exact ih fun l' hl' => h l' (List.mem_cons_of_mem l hl')

theorem line_endLine (r : Reading) (l : Line) : r.line (endLine l) = r.line l := by
  cases l <;> rfl

theorem run_endLast (r : Reading) (d : Document) :
    (endLast d).foldlM Reading.line r = d.foldlM Reading.line r := by
  rw [endLast]
  split
  · next l hlast =>
    obtain ⟨front, rfl⟩ := List.getLast?_eq_some_iff.mp hlast
    rw [List.dropLast_concat, List.foldlM_append, List.foldlM_append]
    simp only [List.foldlM_cons, line_endLine]
  · rfl

def Rooted (r : Reading) : Prop :=
  r.section_ = [] → r.begun = []

theorem Rooted.line (h : Rooted r) (hl : r.line l = some r₁) : Rooted r₁ := by
  cases l with
  | blank | comment =>
    cases hl
    exact h
  | entry before path v written after =>
    obtain ⟨-, -, entries, -, rfl⟩ := enter_eq_some hl
    exact h
  | header indent written path many after =>
    cases many with
    | false =>
      obtain ⟨-, -, entries, halter, rfl⟩ := beginTable_eq_some hl
      exact fun hnil => absurd hnil (ne_nil_of_alter halter)
    | true =>
      obtain ⟨-, entries, halter, rfl⟩ := beginItem_eq_some hl
      exact fun hnil => absurd hnil (ne_nil_of_alter halter)

def PointsIn (l : Line) : Prop :=
  ∃ key rest, l.entryPath? = some (tableName :: key :: rest)

theorem PointsIn.beginning (h : PointsIn l) (hsection : r.section_ = []) (hl : r.line l = some r₁) :
    [tableName] ∈ r₁.beginning := by
  obtain ⟨key, rest, hpath⟩ := h
  cases l with
  | blank | comment | header => cases hpath
  | entry before path v written after =>
    cases hpath
    obtain ⟨-, -, entries, -, rfl⟩ := enter_eq_some hl
    rw [hsection]
    exact List.mem_append_left _ List.mem_cons_self

variable {p : Place}

/-- The array in a section from which its path is reached. -/
structure InSection (v : Toml) (p : Place) : Prop where
  new : ∃ before path written after tail, p.new = .entry before path v written after :: tail ∧
    (∀ l ∈ tail, l.isBlank = true) ∧ path ≠ [] ∧ Document.sectionOf p.before ++ path = usersPath
  pointed : Document.sectionOf p.before = [] → ∃ front l, p.before = front ++ [l] ∧ PointsIn l

theorem shadow_start : Shadow false none {} {} :=
  ⟨⟨.inl rfl, .inl rfl, fun _ _ => rfl, fun _ _ => rfl, rfl⟩, .inr rfl, by simp, by simp, by simp,
    by simp⟩

theorem mem_waypoints_users {q : List String} (hpath : path ≠ [])
    (hfull : section_ ++ path = usersPath) (hq : q ∈ Reading.waypoints section_ path) :
    section_ = [] ∧ q = [tableName] := by
  obtain ⟨name, path, rfl⟩ := List.exists_cons_of_ne_nil hpath
  rcases section_ with _ | ⟨first, _ | ⟨second, others⟩⟩
  · cases hfull
    exact ⟨rfl, List.mem_singleton.mp hq⟩
  · cases hfull
    cases hq
  · simp [usersPath] at hfull

theorem InSection.fill (h : InSection v p)
    (hspares : Everywhere (Spares false) [] (p.before ++ p.rest))
    (hd : (p.before ++ p.rest).foldlM Reading.line {} = some r₁) :
    ∃ r₁', p.fill.foldlM Reading.line {} = some r₁' ∧ Like (some v) r₁.entries r₁'.entries := by
  obtain ⟨before, path, written, after, tail, hnew, htail, hpath, hfull⟩ := h.new
  obtain ⟨r, hbefore, hrest⟩ := foldlM_append hd
  obtain ⟨hspares, hspares'⟩ := everywhere_append.mp hspares
  have hsection : r.section_ = Document.sectionOf p.before := section_run hbefore
  have hunsealed : Unsealed r := run_keeps Unsealed.line (fun q hq => by cases hq) hspares hbefore
  have hrooted : Rooted r := run_keeps (Q := fun _ _ => True) (fun h _ => h.line) (fun _ => rfl)
    (hspares.imp fun _ _ _ => trivial) hbefore
  obtain ⟨r', hbefore', hshadow⟩ := shadow_start.run hspares hbefore
  have hway : ∀ q ∈ Reading.waypoints r.section_ path,
      q ∉ r'.begun ∧ (q ∈ r.beginning ∨ q ∈ r.begun) := by
    intro q hq
    obtain ⟨hroot, rfl⟩ := mem_waypoints_users hpath (hsection ▸ hfull) hq
    obtain ⟨front, l, hfront, hpoints⟩ := h.pointed (hsection ▸ hroot)
    rw [hfront] at hbefore
    obtain ⟨r₀, hrun, hl⟩ := foldlM_append hbefore
    obtain ⟨r₁, hl, hlast⟩ := foldlM_cons hl
    cases hlast
    have hroot₀ : r₀.section_ = [] := by
      have hline := section_line hl
      obtain ⟨key, others, hentry⟩ := hpoints
      cases l with
      | blank | comment | header => cases hentry
      | entry => exact hline.symm.trans hroot
    refine ⟨fun hmem => ?_, .inl (hpoints.beginning hroot₀ hl)⟩
    rcases hshadow.begun _ hmem with (husers | ⟨hopened, -⟩) | hmem
    · cases husers
    · cases hopened
    · rw [hrooted hroot] at hmem
      cases hmem
  obtain ⟨r₀', henter, hshadow₀⟩ := hshadow.insert hunsealed hpath (hsection ▸ hfull) hway v
  obtain ⟨r₁', hrest', hshadow₁⟩ := hshadow₀.run (hsection ▸ hspares') hrest
  have hnew' : p.new.foldlM Reading.line r' = some r₀' := by
    have hline : r'.line (.entry before path v written after) = some r₀' := henter
    rw [hnew, List.foldlM_cons, hline]
    exact run_blank htail r₀'
  refine ⟨r₁', ?_, hshadow₁.entries⟩
  have hbefore'' : (withoutUsers [] p.before).foldlM Reading.line {} = some r' := hbefore'
  rw [hsection] at hrest'
  simp only [Place.fill, List.foldlM_append, run_endLast, hbefore'', hnew', hrest',
    Option.bind_eq_bind, Option.bind_some]

/-- The array in a section that the table did not have before. -/
structure InNewSection (v : Toml) (p : Place) : Prop where
  new : ∃ blanks indent header headerEnd before written after tail, p.new =
    blanks ++ .header indent header [tableName] false headerEnd ::
      .entry before [usersName] v written after :: tail ∧
    (∀ l ∈ blanks, l.isBlank = true) ∧ ∀ l ∈ tail, l.isBlank = true
  rest : ∀ l ∈ p.rest.head?, l.isHeader = true

def Leaves (section_ : List String) (l : Line) : Prop :=
  (∀ path ∈ l.headerPath?, path ≠ [tableName]) ∧
    ∀ path ∈ l.entryPath?, section_ = [] → startsWith path [tableName] = false

def Unbegun (r : Reading) : Prop :=
  [tableName] ∉ r.beginning ++ r.begun

theorem Unbegun.line (h : Unbegun r) (hleaves : Leaves (l.sectionFrom r.section_) l)
    (hl : r.line l = some r₁) : Unbegun r₁ := by
  cases l with
  | blank | comment =>
    cases hl
    exact h
  | entry before path v written after =>
    obtain ⟨-, -, entries, -, rfl⟩ := enter_eq_some hl
    have hway : [tableName] ∉ Reading.waypoints r.section_ path := by
      intro hmem
      obtain ⟨hlength, hstart⟩ := mem_waypoints hmem
      have hroot : r.section_ = [] := by
        cases hsection : r.section_ with
        | nil => rfl
        | cons => simp [hsection] at hlength
      rw [hroot, List.nil_append, hleaves.2 path rfl hroot] at hstart
      cases hstart
    simpa [Unbegun, hway] using h
  | header indent written path many after =>
    have hpath : [tableName] ≠ path := (hleaves.1 path rfl).symm
    cases many with
    | false =>
      obtain ⟨-, -, entries, -, rfl⟩ := beginTable_eq_some hl
      simpa [Unbegun, hpath] using h
    | true =>
      obtain ⟨-, entries, -, rfl⟩ := beginItem_eq_some hl
      have hothers : [tableName] ∉ others path (r.beginning ++ r.begun) := fun hmem =>
        h (mem_others.mp hmem).1
      simpa [Unbegun, hpath] using hothers

theorem Spares.weaken (h : Spares true section_ l) : Spares false section_ l := by
  cases l with
  | blank | comment | entry => exact h
  | header => exact fun _ => h (.inr rfl)

theorem sectionFrom_header (h : l.isHeader = true) (section_ section_' : List String) :
    l.sectionFrom section_ = l.sectionFrom section_' := by
  cases l with
  | blank | comment | entry => cases h
  | header => rfl

theorem everywhere_upToHeader {P : List String → Line → Prop}
    (h : ∀ l ∈ d.head?, l.isHeader = true) (hd : Everywhere P section_ d)
    (section_' : List String) : Everywhere P section_' d := by
  cases d with
  | nil => trivial
  | cons l d =>
    have hsame := sectionFrom_header (h l rfl) section_' section_
    rw [everywhere_cons, hsame]
    exact hd

theorem withoutUsers_upToHeader (h : ∀ l ∈ d.head?, l.isHeader = true)
    (section_ section_' : List String) : withoutUsers section_ d = withoutUsers section_' d := by
  cases d with
  | nil => rfl
  | cons l d => rw [withoutUsers, withoutUsers, sectionFrom_header (h l rfl) section_ section_']

theorem InNewSection.fill (h : InNewSection v p)
    (hspares : Everywhere (Spares true) [] (p.before ++ p.rest))
    (hleaves : Everywhere Leaves [] p.before)
    (hd : (p.before ++ p.rest).foldlM Reading.line {} = some r₁) :
    ∃ r₁', p.fill.foldlM Reading.line {} = some r₁' ∧ Like (some v) r₁.entries r₁'.entries := by
  obtain ⟨blanks, indent, header, headerEnd, before, written, after, tail, hnew, hblanks, htail⟩ :=
    h.new
  obtain ⟨r, hbefore, hrest⟩ := foldlM_append hd
  obtain ⟨hspares, hspares'⟩ := everywhere_append.mp hspares
  have hless : Everywhere (Spares false) [] p.before := hspares.imp fun _ _ h => h.weaken
  have hunsealed : Unsealed r := run_keeps Unsealed.line (fun q hq => by cases hq) hless hbefore
  have hunbegun : Unbegun r := run_keeps Unbegun.line (by simp [Unbegun]) hleaves hbefore
  obtain ⟨r', hbefore', hshadow⟩ := shadow_start.run hless hbefore
  obtain ⟨r₀', hbegin, hshadow₀⟩ := hshadow.insert_table hunsealed hunbegun
  obtain ⟨r₂, hrest₂, hentries⟩ := run_upToHeader h.rest hrest [tableName]
  have hunsealed₀ : Unsealed (upToHeader [tableName] r) := hunsealed
  obtain ⟨r₁', henter, hshadow₁⟩ := hshadow₀.insert hunsealed₀ (List.cons_ne_nil usersName []) rfl
    (fun q hq => by cases hq) v
  have hspares₁ := everywhere_upToHeader h.rest hspares' [tableName]
  obtain ⟨r₂', hrest', hshadow₂⟩ := hshadow₁.run hspares₁ hrest₂
  have hnew' : p.new.foldlM Reading.line r' = some r₁' := by
    have hline : r'.line (.header indent header [tableName] false headerEnd) = some r₀' := hbegin
    have hline' : r₀'.line (.entry before [usersName] v written after) = some r₁' := henter
    rw [hnew, List.foldlM_append, run_blank hblanks, Option.bind_eq_bind, Option.bind_some,
      List.foldlM_cons, hline, Option.bind_eq_bind, Option.bind_some, List.foldlM_cons, hline']
    exact run_blank htail r₁'
  have hbefore'' : (withoutUsers [] p.before).foldlM Reading.line {} = some r' := hbefore'
  rw [withoutUsers_upToHeader h.rest _ (Document.sectionOf p.before)] at hrest'
  refine ⟨r₂', ?_, hentries ▸ hshadow₂.entries⟩
  simp only [Place.fill, List.foldlM_append, run_endLast, hbefore'', hnew', hrest',
    Option.bind_eq_bind, Option.bind_some]

end VirtualUsers.Registry
