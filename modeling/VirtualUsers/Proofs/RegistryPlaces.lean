import Mathlib.Data.Option.Basic
import VirtualUsers.Proofs.ArrayEntries
/-!
# Places of the array

Whatever a document looks like, there is a place in it where the array is entered: the entry that it
has, the section of its table, a key with points, or a new section.
-/

namespace VirtualUsers.Registry

open Toml

variable {r₁ : Reading} {l : Line} {d : Document} {section_ : List String}

/-! ## Cuts -/

variable {test : List String → Line → Bool} {before rest : Document}

theorem cut_eq_some (h : cut test section_ d = some (before, l, rest)) :
    d = before ++ l :: rest ∧ test (l.sectionFrom (sectionAfter section_ before)) l = true := by
  induction d generalizing section_ before with
  | nil => cases h
  | cons first d ih =>
    rw [cut] at h
    split at h
    · next htest =>
      cases h
      exact ⟨rfl, htest⟩
    · obtain ⟨⟨before', l', rest'⟩, hcut, h⟩ := Option.map_eq_some_iff.mp h
      cases h
      obtain ⟨rfl, htest⟩ := ih hcut
      exact ⟨rfl, htest⟩

theorem cut_eq_none (h : cut test section_ d = none) :
    Everywhere (fun section_ l => test section_ l = false) section_ d := by
  induction d generalizing section_ with
  | nil => trivial
  | cons l d ih =>
    rw [cut] at h
    split at h
    · cases h
    · next htest => exact ⟨by simpa using htest, ih (Option.map_eq_none_iff.mp h)⟩

theorem Everywhere.and {P Q : List String → Line → Prop} (hP : Everywhere P section_ d)
    (hQ : Everywhere Q section_ d) : Everywhere (fun section_ l => P section_ l ∧ Q section_ l)
      section_ d := by
  induction d generalizing section_ with
  | nil => trivial
  | cons l d ih => exact ⟨⟨hP.1, hQ.1⟩, ih hP.2 hQ.2⟩

theorem everywhere_of_forall {P : Line → Prop} (h : ∀ l ∈ d, P l) (section_ : List String) :
    Everywhere (fun _ l => P l) section_ d := by
  induction d generalizing section_ with
  | nil => trivial
  | cons l d ih =>
    exact ⟨h l List.mem_cons_self, ih (fun l' hl' => h l' (List.mem_cons_of_mem l hl')) _⟩

/-- Nothing in the document is put in the place of the table. -/
theorem spares_of_cut (hcut : cut (enters [tableName]) [] d = none)
    (hitem : d.any (beginsItem [tableName]) = false) : Everywhere (Spares false) [] d := by
  have hitems : ∀ l ∈ d, beginsItem [tableName] l = false := by
    simpa [List.any_eq_false] using hitem
  refine ((cut_eq_none hcut).and (everywhere_of_forall hitems [])).imp fun section_ l h => ?_
  cases l with
  | blank | comment => trivial
  | entry => simpa [enters, Line.entryPath?, Spares] using h.1
  | header =>
    intro hmany hpath
    have hmany : _ = true := hmany.resolve_right (by decide)
    simp [beginsItem, hmany, hpath] at h

theorem enters_eq_true {path : List String} (h : enters path section_ l = true) :
    ∃ before q v written after, l = .entry before q v written after ∧ section_ ++ q = path := by
  cases l with
  | blank | comment | header => cases h
  | entry before q v written after =>
    exact ⟨before, q, v, written, after, rfl, by simpa [enters, Line.entryPath?] using h⟩

theorem begins_eq_true {path : List String} (h : begins path l = true) :
    ∃ indent written after, l = .header indent written path false after := by
  cases l with
  | blank | comment | entry => cases h
  | header indent written q many after =>
    have h' : q = path ∧ many = false := by simpa [begins] using h
    exact ⟨indent, written, after, by rw [h'.1, h'.2]⟩

theorem sectionOf_concat (d : Document) (l : Line) :
    Document.sectionOf (d ++ [l]) = l.sectionFrom (Document.sectionOf d) := by
  simp [Document.sectionOf]

theorem isBlank_gap (d : Document) : ∀ l ∈ gap d, l.isBlank = true := by
  unfold gap
  split
  · split <;> simp [Line.isBlank]
  · simp

theorem bodyOf_isPrefixOf (rest : Document) : bodyOf rest <+: rest.takeWhile (!·.isHeader) := by
  have hsuffix := List.dropWhile_suffix (l := (rest.takeWhile (!·.isHeader)).reverse)
    fun l => l.isBlank || entersWithin [usersName] l
  have hprefix := List.reverse_prefix.mpr hsuffix
  rwa [List.reverse_reverse] at hprefix

theorem sectionAfter_body (h : ∀ l ∈ d, l.isHeader = false) (section_ : List String) :
    sectionAfter section_ d = section_ := by
  induction d with
  | nil => rfl
  | cons l d ih =>
    have hl : l.sectionFrom section_ = section_ := by
      cases l with
      | blank | comment | entry => rfl
      | header => cases h _ List.mem_cons_self
    rw [sectionAfter, List.foldl_cons, hl]
    exact ih fun l' hl' => h l' (List.mem_cons_of_mem l hl')

/-! ## Places -/

theorem place_entry (ids : List String)
    (hcut : cut (enters usersPath) [] d = some (before, l, rest))
    (hkeyed : ∀ l ∈ d, l.entryPath? ≠ some []) :
    d = (before ++ [l]) ++ rest ∧
      InSection (arrayOf ids) ⟨before ++ [l], [refill ids l], rest⟩ := by
  obtain ⟨hd, htest⟩ := cut_eq_some hcut
  obtain ⟨written, path, v, value, after, rfl, hfull⟩ := enters_eq_true htest
  refine ⟨by simp [hd], ⟨written, path, _, after, [], rfl, by simp, ?_, ?_⟩, fun hroot => ?_⟩
  · intro hnil
    exact hkeyed (.entry written path v value after) (by simp [hd]) (congrArg some hnil)
  · rw [sectionOf_concat]
    exact hfull
  · rw [sectionOf_concat] at hroot
    have hpath : path = usersPath := by
      have hsection : sectionAfter [] before = [] := hroot
      change sectionAfter [] before ++ path = usersPath at hfull
      rwa [hsection] at hfull
    exact ⟨before, _, rfl, usersName, [], by rw [Line.entryPath?, hpath]; rfl⟩

theorem place_section (ids : List String)
    (hcut : cut (fun _ => begins [tableName]) [] d = some (before, l, rest)) :
    d = (placeInSection ids before l rest).before ++ (placeInSection ids before l rest).rest ∧
      InSection (arrayOf ids) (placeInSection ids before l rest) := by
  obtain ⟨hd, htest⟩ := cut_eq_some hcut
  obtain ⟨indent, written, after, rfl⟩ := begins_eq_true htest
  have hbody := bodyOf_isPrefixOf rest
  have hrest := List.prefix_iff_eq_append.mp (hbody.trans (List.takeWhile_prefix _))
  have hnoHeader : ∀ l ∈ bodyOf rest, l.isHeader = false := fun l hl => by
    simpa using List.mem_takeWhile_imp (hbody.subset hl)
  have hsection : Document.sectionOf (placeInSection ids before
      (.header indent written [tableName] false after) rest).before = [tableName] := by
    have hcons := sectionAfter_body hnoHeader [tableName]
    rw [placeInSection, Document.sectionOf, List.foldl_append, List.foldl_cons]
    exact hcons
  refine ⟨?_, ⟨_, [usersName], _, _, _, rfl, isBlank_gap _, List.cons_ne_nil _ _, ?_⟩,
    fun hroot => ?_⟩
  · simp [placeInSection, hd, hrest]
  · rw [hsection]
    rfl
  · rw [hsection] at hroot
    cases hroot

theorem cutPointed_eq_some (h : cutPointed d = some (before, l, rest)) :
    ∃ test, cut (pointsInto test) [] d = some (before, l, rest) := by
  rw [cutPointed, Option.orElse_eq_some, Option.orElse_eq_some] at h
  rcases h with h | ⟨-, h | ⟨-, h⟩⟩ <;> exact ⟨_, h⟩

theorem cutPointed_eq_none (h : cutPointed d = none) :
    Everywhere (fun section_ l => pointsInto (fun _ => true) section_ l = false) [] d := by
  rw [cutPointed, Option.orElse_eq_none, Option.orElse_eq_none] at h
  exact cut_eq_none h.2.2

theorem pointsInto_eq_true {test : List String → Bool} (h : pointsInto test section_ l = true) :
    section_ = [] ∧ ∃ before path v written after, l = .entry before path v written after ∧
      startsWith path [tableName] = true := by
  cases l with
  | blank | comment | header => simp [pointsInto, Line.entryPath?] at h
  | entry before path v written after =>
    have h' : section_ = [] ∧ startsWith path [tableName] = true ∧ test path = true := by
      simpa [pointsInto, Line.entryPath?] using h
    exact ⟨h'.1, before, path, v, written, after, rfl, h'.2.1⟩

theorem place_pointed (ids : List String) (hcut : cutPointed d = some (before, l, rest))
    (hspares : Everywhere (Spares false) [] d) :
    d = (before ++ [l]) ++ rest ∧
      InSection (arrayOf ids) ⟨before ++ [l], [newEntry [] usersPath ids], rest⟩ := by
  obtain ⟨test, hcut⟩ := cutPointed_eq_some hcut
  obtain ⟨hd, htest⟩ := cut_eq_some hcut
  obtain ⟨hroot, written, path, v, value, after, rfl, hstart⟩ := pointsInto_eq_true htest
  have hsection : Document.sectionOf before = [] := hroot
  obtain ⟨others, rfl⟩ := startsWith_iff.mp hstart
  have hpoints : PointsIn (.entry written ([tableName] ++ others) v value after) := by
    cases others with
    | nil =>
      rw [hd] at hspares
      exact absurd rfl (hroot ▸ (everywhere_append.mp hspares).2.1)
    | cons key others => exact ⟨key, others, rfl⟩
  refine ⟨by simp [hd], ⟨_, usersPath, _, _, [], rfl, by simp, List.cons_ne_nil _ _, ?_⟩,
    fun _ => ⟨before, _, rfl, hpoints⟩⟩
  rw [sectionOf_concat]
  exact congrArg (· ++ usersPath) hsection

/-- No line begins the table or makes it. -/
theorem leaves_of_cut (hspares : Everywhere (Spares false) [] d)
    (hheader : cut (fun _ => begins [tableName]) [] d = none) (hpointed : cutPointed d = none) :
    Everywhere Leaves [] d ∧ Everywhere (Spares true) [] d := by
  have hall := (hspares.and (cut_eq_none hheader)).and (cutPointed_eq_none hpointed)
  have hpath {section_ : List String} {indent written after : List Char} {path : List String}
      {many : Bool} (hspares : Spares false section_ (.header indent written path many after))
      (hbegins : begins [tableName] (.header indent written path many after) = false) :
      path ≠ [tableName] := by
    rintro rfl
    cases many with
    | false => simp [begins] at hbegins
    | true => exact hspares (.inl rfl) rfl
  constructor
  · refine hall.imp fun section_ l h => ⟨fun path hheader => ?_, fun path hentry hroot => ?_⟩
    · cases l with
      | blank | comment | entry => cases hheader
      | header =>
        cases hheader
        exact hpath h.1.1 h.1.2
    · cases l with
      | blank | comment | header => cases hentry
      | entry =>
        cases hentry
        simpa [pointsInto, hroot, Line.entryPath?] using h.2
  · refine hall.imp fun section_ l h => ?_
    cases l with
    | blank | comment | entry => exact h.1.1
    | header => exact fun _ => hpath h.1.1 h.1.2

theorem place_before (ids : List String)
    (hcut : cut (fun _ => isWithin [tableName]) [] d = some (before, l, rest)) :
    d = before ++ l :: rest ∧ InNewSection (arrayOf ids) (placeBefore ids before l rest) := by
  obtain ⟨hd, htest⟩ := cut_eq_some hcut
  refine ⟨hd, ⟨[], _, _, _, _, _, _, _, rfl, by simp, isBlank_gap _⟩, fun l' hl' => ?_⟩
  cases hl'
  cases l with
  | blank | comment | entry => cases htest
  | header => rfl

theorem openBlank_append (d : Document) : ∃ tail, d = (openBlank d).1 ++ tail ∧
    ∀ l ∈ tail, l.isBlank = true := by
  unfold openBlank
  split
  · next cs hlast =>
    split
    · exact ⟨[], by simp, by simp⟩
    · obtain ⟨front, rfl⟩ := List.getLast?_eq_some_iff.mp hlast
      exact ⟨[.blank cs], by simp, by simp [Line.isBlank]⟩
  · exact ⟨[], by simp, by simp⟩

theorem place_atEnd (ids : List String) (d : Document) :
    (placeAtEnd ids d).before = (openBlank d).1 ∧ (placeAtEnd ids d).rest = [] ∧
      InNewSection (arrayOf ids) (placeAtEnd ids d) := by
  unfold placeAtEnd
  dsimp only
  split
  · exact ⟨rfl, rfl, ⟨[], _, _, _, _, _, _, [], rfl, by simp, by simp⟩, by simp⟩
  · refine ⟨rfl, rfl, ⟨_, _, _, _, _, _, _, [], rfl, ?_, by simp⟩, by simp⟩
    split <;> simp [Line.isBlank]

/-- The places that an array can have in a document. -/
inductive Placed (ids : List String) (d : Document) : Place → Prop where
  | inEntry {before rest : Document} {l : Line} :
      cut (enters usersPath) [] d = some (before, l, rest) →
      Placed ids d ⟨before ++ [l], [refill ids l], rest⟩
  | inSection {before rest : Document} {header : Line} :
      cut (fun _ => begins [tableName]) [] d = some (before, header, rest) →
      Placed ids d (placeInSection ids before header rest)
  | atPoint {before rest : Document} {l : Line} : cutPointed d = some (before, l, rest) →
      Placed ids d ⟨before ++ [l], [newEntry [] usersPath ids], rest⟩
  | beforeFirst {before rest : Document} {first : Line} :
      cut (fun _ => begins [tableName]) [] d = none → cutPointed d = none →
      cut (fun _ => isWithin [tableName]) [] d = some (before, first, rest) →
      Placed ids d (placeBefore ids before first rest)
  | atEnd : cut (fun _ => begins [tableName]) [] d = none → cutPointed d = none →
      Placed ids d (placeAtEnd ids d)

theorem placed (ids : List String) (d : Document) : Placed ids d (place ids d) := by
  unfold place
  split
  · next hcut => exact .inEntry hcut
  · split
    · next hcut => exact .inSection hcut
    · next hheader =>
      split
      · next hcut => exact .atPoint hcut
      · next hpointed =>
        split
        · next hcut => exact .beforeFirst hheader hpointed hcut
        · exact .atEnd hheader hpointed

/-- The document with the array in its place is read like the document without it. -/
theorem meaning_place (ids : List String) (hspares : Everywhere (Spares false) [] d)
    (hkeyed : ∀ l ∈ d, l.entryPath? ≠ some []) (hd : d.foldlM Reading.line {} = some r₁) :
    ∃ r₁', (place ids d).fill.foldlM Reading.line {} = some r₁' ∧
      Like (some (arrayOf ids)) r₁.entries r₁'.entries := by
  have hplaced := placed ids d
  generalize place ids d = p at hplaced ⊢
  cases hplaced with
  | inEntry hcut =>
    obtain ⟨hsame, hplace⟩ := place_entry ids hcut hkeyed
    exact hplace.fill (hsame ▸ hspares) (hsame ▸ hd)
  | inSection hcut =>
    obtain ⟨hsame, hplace⟩ := place_section ids hcut
    exact hplace.fill (hsame ▸ hspares) (hsame ▸ hd)
  | atPoint hcut =>
    obtain ⟨hsame, hplace⟩ := place_pointed ids hcut hspares
    exact hplace.fill (hsame ▸ hspares) (hsame ▸ hd)
  | beforeFirst hheader hpointed hcut =>
    obtain ⟨hleaves, hspares⟩ := leaves_of_cut hspares hheader hpointed
    obtain ⟨hsame, hplace⟩ := place_before ids hcut
    rw [hsame] at hleaves
    exact hplace.fill (hsame ▸ hspares) (everywhere_append.mp hleaves).1 (hsame ▸ hd)
  | atEnd hheader hpointed =>
    obtain ⟨hleaves, hspares⟩ := leaves_of_cut hspares hheader hpointed
    obtain ⟨hbefore, hrest, hplace⟩ := place_atEnd ids d
    obtain ⟨tail, htail, hblank⟩ := openBlank_append d
    have hsame : (placeAtEnd ids d).before ++ (placeAtEnd ids d).rest = (openBlank d).1 := by
      rw [hbefore, hrest, List.append_nil]
    generalize (openBlank d).1 = front at htail hbefore hsame
    rw [htail] at hspares hleaves hd
    obtain ⟨r, hfront, htailRun⟩ := foldlM_append hd
    rw [run_blank hblank] at htailRun
    cases htailRun
    exact hplace.fill (hsame ▸ (everywhere_append.mp hspares).1)
      (hbefore ▸ (everywhere_append.mp hleaves).1) (hsame ▸ hfront)

end VirtualUsers.Registry
