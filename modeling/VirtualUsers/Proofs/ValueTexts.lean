import Mathlib.Data.Option.Basic
import VirtualUsers.Proofs.KeyTexts
/-!
# Texts of values

The characters of a value are read as that value wherever one can end after them. It does not matter
how deep values may be nested, as long as that is enough for the characters.
-/

namespace VirtualUsers.Toml

open Text (dropWhile_of_head head_dropWhile)

variable {cs rest : List Char}

/-! ## Ends of values -/

/-- A value can end here: nothing follows or, after white space, a character that ends values. -/
def Ends (cs : List Char) : Prop :=
  ∀ c ∈ (cs.dropWhile isSpace).head?, endsPlain c = true

theorem isSpace_or_endsPlain {c : Char} (h : Ends (c :: cs)) : isSpace c || endsPlain c := by
  cases hc : isSpace c with
  | true => rfl
  | false => exact h c (by rw [List.dropWhile_cons, hc]; rfl)

theorem Ends.head? (h : Ends cs) (quote : Char)
    (hquote : (isSpace quote || endsPlain quote) = false) : cs.head? ≠ some quote := by
  intro hhead
  obtain ⟨tail, rfl⟩ := List.head?_eq_some_iff.mp hhead
  rw [isSpace_or_endsPlain h] at hquote
  cases hquote

theorem ends_cons {c : Char} (hspace : isSpace c = false) (hc : endsPlain c = true) :
    Ends (c :: rest) := by
  intro d hd
  rw [List.dropWhile_cons, hspace] at hd
  cases hd
  exact hc

theorem ends_nil : Ends [] := by
  intro c hc
  cases hc

/-- The text ends in a character that is no white space. -/
theorem plainPart_append {m : List Char} (hm : ∀ c ∈ m, endsPlain c = false)
    (hlast : ∀ c ∈ m.getLast?, isSpace c = false) (hrest : Ends rest) :
    plainPart (m ++ rest) = m := by
  obtain ⟨space, hspace, hall, -⟩ := dropWhile_exact (rfl : rest.dropWhile isSpace = _)
  have hplain : ∀ c ∈ m ++ space, (!endsPlain c) = true := by
    intro c hc
    rcases List.mem_append.mp hc with hc | hc
    · simp [hm c hc]
    · have hc := hall c hc
      simp only [isSpace, Bool.or_eq_true, beq_iff_eq] at hc
      rcases hc with rfl | rfl <;> rfl
  have hpart : (m ++ rest).takeWhile (!endsPlain ·) = m ++ space := by
    rw [hspace, ← List.append_assoc]
    refine takeWhile_append_of_head hplain fun c hc => ?_
    rw [hrest c hc]
    rfl
  have hdrop : (m.reverse).dropWhile isSpace = m.reverse :=
    dropWhile_of_head fun c hc => hlast c (by rwa [List.head?_reverse] at hc)
  rw [plainPart, hpart, List.reverse_append, List.dropWhile_append_of_pos (by simpa using hall),
    hdrop, List.reverse_reverse]

theorem plainPart_isPrefixOf (cs : List Char) : plainPart cs <+: cs := by
  have hsuffix := List.dropWhile_suffix (l := (cs.takeWhile (!endsPlain ·)).reverse) isSpace
  have hprefix := List.reverse_prefix.mpr hsuffix
  rw [List.reverse_reverse] at hprefix
  exact hprefix.trans (List.takeWhile_prefix _)

theorem endsPlain_of_mem {c : Char} (h : c ∈ plainPart cs) : endsPlain c = false := by
  have hmem := (List.dropWhile_sublist isSpace).subset (List.mem_reverse.mp h)
  simpa using List.mem_takeWhile_imp (List.mem_reverse.mp hmem)

theorem getLast?_plainPart : ∀ c ∈ (plainPart cs).getLast?, isSpace c = false := by
  intro c hc
  rw [plainPart, List.getLast?_reverse] at hc
  have hnot := List.head?_dropWhile_not isSpace (cs.takeWhile (!endsPlain ·)).reverse
  rw [Option.mem_def.mp hc] at hnot
  exact hnot

theorem takeScalar_exact {v : Toml} (h : takeScalar cs = some (v, rest)) :
    ∃ m, m ≠ [] ∧ cs = m ++ rest ∧ ∀ rest', Ends rest' →
      takeScalar (m ++ rest') = some (v, rest') := by
  have hpart := List.prefix_iff_eq_append.mp (plainPart_isPrefixOf cs)
  unfold takeScalar at h
  generalize hm : plainPart cs = m at h hpart
  split at h
  · next hread =>
    cases h
    refine ⟨m, ?_, hpart.symm, fun rest' hrest => ?_⟩
    · rintro rfl
      cases hread
    · have hagain : plainPart (m ++ rest') = m :=
        plainPart_append (fun c hc => endsPlain_of_mem (hm ▸ hc))
          (fun c hc => getLast?_plainPart c (hm ▸ hc)) hrest
      rw [takeScalar, hagain, hread, List.drop_left]
  · cases h

/-! ## White space and comments between items -/

def AtLineEnd (cs : List Char) : Prop :=
  ∀ c ∈ cs.head?, c = '\n'

theorem skipComment_exact {tail : List Char} (h : skipComment ('#' :: tail) = some rest) :
    ∃ m, '\n' ∉ m ∧ tail = m ++ rest ∧ AtLineEnd rest ∧
      ∀ rest', AtLineEnd rest' → skipComment ('#' :: (m ++ rest')) = some rest' := by
  have hstep (cs : List Char) : skipComment ('#' :: cs) =
      if (cs.takeWhile (· != '\n')).any isControl then none
      else some (cs.dropWhile (· != '\n')) := by
    rw [skipComment, drop_takeWhile]
  rw [hstep] at h
  split at h
  · cases h
  · next hcontrol =>
    cases h
    have hall : ∀ c ∈ tail.takeWhile (· != '\n'), (c != '\n') = true := fun c hc =>
      List.mem_takeWhile_imp (p := (· != '\n')) hc
    refine ⟨tail.takeWhile (· != '\n'), fun hmem => absurd (hall _ hmem) (by decide),
      List.takeWhile_append_dropWhile.symm, fun c hc => ?_, fun rest' hrest => ?_⟩
    · obtain ⟨others, hothers⟩ := List.head?_eq_some_iff.mp hc
      simpa using head_dropWhile hothers
    · have hend : ∀ c ∈ rest'.head?, (c != '\n') = false := fun c hc => by simpa using hrest c hc
      rw [hstep, takeWhile_append_of_head hall hend, List.dropWhile_append_of_pos hall,
        dropWhile_of_head hend, if_neg hcontrol]

theorem skipLines_to {fuel : Nat} {c : Char} (h : cs.dropWhile isSpaceOrLine = c :: rest)
    (hc : c ≠ '#') : skipLines (fuel + 1) cs = some (c :: rest) := by
  simp only [skipLines, h]
  split
  · next heq => exact absurd (List.cons.inj heq).1 hc
  · rfl

/-- White space, line ends and comments that are skipped up to the given character. -/
def Skips (m : List Char) (c : Char) : Prop :=
  ∀ rest fuel, m.length < fuel → skipLines fuel (m ++ c :: rest) = some (c :: rest)

theorem skipLines_comment {fuel : Nat} {next tail : List Char}
    (h : cs.dropWhile isSpaceOrLine = '#' :: tail) (hskip : skipComment ('#' :: tail) = some next) :
    skipLines (fuel + 1) cs = skipLines fuel next := by
  simp only [skipLines, h, hskip]
  rfl

theorem skipLines_text {fuel : Nat} {c : Char} (h : skipLines fuel cs = some (c :: rest)) :
    isSpaceOrLine c = false ∧ ∃ m, cs = m ++ c :: rest ∧ Skips m c := by
  induction fuel generalizing cs with
  | zero => cases h
  | succ fuel ih =>
    generalize hstart : cs.dropWhile isSpaceOrLine = start at h
    obtain ⟨space, rfl, -, hspace⟩ := dropWhile_exact hstart
    by_cases hcomment : ∃ tail, start = '#' :: tail
    · obtain ⟨tail, rfl⟩ := hcomment
      cases hskip : skipComment ('#' :: tail) with
      | none => simp [skipLines, hstart, hskip] at h
      | some next =>
        rw [skipLines_comment hstart hskip] at h
        obtain ⟨hc, m, rfl, hm⟩ := ih h
        obtain ⟨comment, -, rfl, hline, hagain⟩ := skipComment_exact hskip
        refine ⟨hc, space ++ '#' :: (comment ++ m), by simp, fun rest' fuel' hfuel => ?_⟩
        obtain ⟨fuel', rfl⟩ := Nat.exists_eq_add_one.mpr (Nat.zero_lt_of_lt hfuel)
        simp only [List.length_append, List.length_cons] at hfuel
        have hfirst : (m ++ c :: rest').head? = (m ++ c :: rest).head? := head?_append_of_head rfl
        have hstart' : (space ++ '#' :: (comment ++ (m ++ c :: rest'))).dropWhile isSpaceOrLine =
            '#' :: (comment ++ (m ++ c :: rest')) := hspace _
        have hskip' := hagain (m ++ c :: rest') (by rwa [AtLineEnd, hfirst])
        simp only [List.append_assoc, List.cons_append]
        rw [skipLines_comment hstart' hskip']
        exact hm rest' fuel' (by omega)
    · have hend : start = c :: rest := by
        simp only [skipLines, hstart] at h
        split at h
        · exact absurd ⟨_, rfl⟩ hcomment
        · exact Option.some.inj h
      subst hend
      have hc : isSpaceOrLine c = false := head_dropWhile hstart
      have hne : c ≠ '#' := by
        rintro rfl
        exact hcomment ⟨rest, rfl⟩
      refine ⟨hc, space, rfl, fun rest' fuel' hfuel => ?_⟩
      obtain ⟨fuel', rfl⟩ := Nat.exists_eq_add_one.mpr (Nat.zero_lt_of_lt hfuel)
      refine skipLines_to ?_ hne
      rw [hspace, List.dropWhile_cons, hc]
      rfl

/-- A value ends before what is skipped up to a character that ends values. -/
theorem ends_of_skipLines {fuel : Nat} {c : Char} (h : skipLines fuel cs = some (c :: rest))
    (hc : endsPlain c = true) : Ends cs := by
  intro d hd
  obtain ⟨tail, htail⟩ := List.head?_eq_some_iff.mp hd
  cases fuel with
  | zero => cases h
  | succ fuel =>
    cases hline : isSpaceOrLine d with
    | true =>
      have hspace := head_dropWhile htail
      simp only [isSpaceOrLine, hspace, Bool.false_or, beq_iff_eq] at hline
      subst hline
      rfl
    | false =>
      obtain ⟨space, hcs, hall, -⟩ := dropWhile_exact htail
      have hstart : cs.dropWhile isSpaceOrLine = d :: tail := by
        rw [hcs, List.dropWhile_append_of_pos, List.dropWhile_cons, hline]
        · rfl
        · intro e he
          simp [isSpaceOrLine, hall e he]
      by_cases hd : d = '#'
      · subst hd
        rfl
      · rw [skipLines_to hstart hd] at h
        cases h
        exact hc

/-! ## Values -/

/-- The characters of a value, read as that value wherever one can end after them. -/
structure ValueText (m : List Char) (v : Toml) : Prop where
  ne_nil : m ≠ []
  read : ∀ depth rest, m.length ≤ depth → Ends rest → takeValue depth (m ++ rest) = some (v, rest)

/-- The characters of items up to the closing bracket. -/
structure ItemsText (m : List Char) (items : List Toml) : Prop where
  ne_nil : m ≠ []
  read : ∀ depth fuel rest, m.length ≤ depth → m.length ≤ fuel →
    takeItems (takeValue depth) fuel (m ++ rest) = some (items, rest)

section Items

variable {space m w : List Char} {item : Toml} {items : List Toml}

theorem takeItems_close {value : Reader Toml} {fuel : Nat}
    (h : skipLines (cs.length + 1) cs = some (']' :: rest)) :
    takeItems value (fuel + 1) cs = some ([], rest) := by
  rw [takeItems, h]
  rfl

theorem takeItems_last {value : Reader Toml} {fuel : Nat} {c : Char} {start next : List Char}
    (h : skipLines (cs.length + 1) cs = some (c :: start)) (hc : c ≠ ']')
    (hitem : value (c :: start) = some (item, next))
    (hnext : skipLines (next.length + 1) next = some (']' :: rest)) :
    takeItems value (fuel + 1) cs = some ([item], rest) := by
  rw [takeItems, h]
  simp only [Option.bind_eq_bind, Option.bind_some]
  split
  · next heq => exact absurd (List.cons.inj heq).1 hc
  · rw [hitem]
    simp only [Option.bind_some, hnext]
    rfl

theorem takeItems_more {value : Reader Toml} {fuel : Nat} {c : Char} {start next others : List Char}
    (h : skipLines (cs.length + 1) cs = some (c :: start)) (hc : c ≠ ']')
    (hitem : value (c :: start) = some (item, next))
    (hnext : skipLines (next.length + 1) next = some (',' :: others))
    (hothers : takeItems value fuel others = some (items, rest)) :
    takeItems value (fuel + 1) cs = some (item :: items, rest) := by
  rw [takeItems, h]
  simp only [Option.bind_eq_bind, Option.bind_some]
  split
  · next heq => exact absurd (List.cons.inj heq).1 hc
  · rw [hitem]
    simp only [Option.bind_some, hnext, hothers]
    rfl

theorem ItemsText.close (hspace : Skips space ']') : ItemsText (space ++ [']']) [] := by
  refine ⟨by simp, fun depth fuel rest _ hfuel => ?_⟩
  obtain ⟨fuel, rfl⟩ : ∃ n, fuel = n + 1 :=
    Nat.exists_eq_add_one.mpr (Nat.lt_of_lt_of_le (by simp) hfuel)
  rw [List.append_assoc]
  exact takeItems_close (hspace rest _ (by simp only [List.length_append, List.length_cons]; omega))

theorem ItemsText.last {c : Char} {start : List Char} (hspace : Skips space c) (hc : c ≠ ']')
    (hitem : ValueText (c :: start) item) (hend : Skips w ']') :
    ItemsText (space ++ (c :: start ++ (w ++ [']']))) [item] := by
  refine ⟨by simp, fun depth fuel rest hdepth hfuel => ?_⟩
  simp only [List.length_append, List.length_cons] at hdepth hfuel
  obtain ⟨fuel, rfl⟩ : ∃ n, fuel = n + 1 := Nat.exists_eq_add_one.mpr (by omega)
  have hcs : space ++ (c :: start ++ (w ++ [']'])) ++ rest =
      space ++ c :: (start ++ (w ++ ']' :: rest)) := by simp
  have hnext := hend rest ((w ++ ']' :: rest).length + 1)
    (by simp only [List.length_append, List.length_cons]; omega)
  rw [hcs]
  exact takeItems_last (hspace _ _ (by simp only [List.length_append, List.length_cons]; omega)) hc
    (hitem.read depth _ (by simp only [List.length_cons]; omega) (ends_of_skipLines hnext rfl))
    hnext

theorem ItemsText.more {c : Char} {start : List Char} (hspace : Skips space c) (hc : c ≠ ']')
    (hitem : ValueText (c :: start) item) (hcomma : Skips w ',') (hothers : ItemsText m items) :
    ItemsText (space ++ (c :: start ++ (w ++ ',' :: m))) (item :: items) := by
  refine ⟨by simp, fun depth fuel rest hdepth hfuel => ?_⟩
  simp only [List.length_append, List.length_cons] at hdepth hfuel
  obtain ⟨fuel, rfl⟩ : ∃ n, fuel = n + 1 := Nat.exists_eq_add_one.mpr (by omega)
  have hcs : space ++ (c :: start ++ (w ++ ',' :: m)) ++ rest =
      space ++ c :: (start ++ (w ++ ',' :: (m ++ rest))) := by simp
  have hnext := hcomma (m ++ rest) ((w ++ ',' :: (m ++ rest)).length + 1)
    (by simp only [List.length_append, List.length_cons]; omega)
  rw [hcs]
  exact takeItems_more (hspace _ _ (by simp only [List.length_append, List.length_cons]; omega)) hc
    (hitem.read depth _ (by simp only [List.length_cons]; omega) (ends_of_skipLines hnext rfl))
    hnext (hothers.read depth fuel rest (by omega) (by omega))

end Items

def ReadsTexts (value : Reader Toml) : Prop :=
  ∀ {cs v rest}, value cs = some (v, rest) → Ends rest → ∃ m, cs = m ++ rest ∧ ValueText m v

theorem takeItems_text {value : Reader Toml} (hvalue : ReadsTexts value) {fuel : Nat}
    {items : List Toml} (h : takeItems value fuel cs = some (items, rest)) :
    ∃ m, cs = m ++ rest ∧ ItemsText m items := by
  induction fuel generalizing cs items with
  | zero => cases h
  | succ fuel ih =>
    obtain ⟨start, hspace, h⟩ := Option.bind_eq_some_iff.mp h
    split at h
    · cases h
      obtain ⟨-, space, rfl, hskips⟩ := skipLines_text hspace
      exact ⟨space ++ [']'], by simp, ItemsText.close hskips⟩
    · next hclose =>
      obtain ⟨⟨item, next⟩, hitem, h⟩ := Option.bind_eq_some_iff.mp h
      obtain ⟨next', hskip, h⟩ := Option.bind_eq_some_iff.mp h
      have htext (hends : Ends next) : ∃ space c tail, cs = space ++ (c :: tail ++ next) ∧
          Skips space c ∧ c ≠ ']' ∧ ValueText (c :: tail) item := by
        obtain ⟨m, rfl, hm⟩ := hvalue hitem hends
        obtain ⟨c, tail, rfl⟩ := List.exists_cons_of_ne_nil hm.ne_nil
        obtain ⟨-, space, rfl, hskips⟩ := skipLines_text hspace
        exact ⟨space, c, tail, rfl, hskips, fun hc => hclose (tail ++ next) (hc ▸ rfl), hm⟩
      dsimp only at h
      split at h
      · cases h
        obtain ⟨space, c, tail, rfl, hskips, hc, hm⟩ := htext (ends_of_skipLines hskip rfl)
        obtain ⟨-, w, rfl, hw⟩ := skipLines_text hskip
        exact ⟨_, by simp, ItemsText.last hskips hc hm hw⟩
      · obtain ⟨⟨others, next''⟩, hothers, h⟩ := Option.bind_eq_some_iff.mp h
        cases h
        obtain ⟨space, c, tail, rfl, hskips, hc, hm⟩ := htext (ends_of_skipLines hskip rfl)
        obtain ⟨-, w, rfl, hw⟩ := skipLines_text hskip
        obtain ⟨m, rfl, htexts⟩ := ih hothers
        exact ⟨_, by simp, ItemsText.more hskips hc hm hw htexts⟩
      · cases h

/-! ## Inline tables -/

/-- The characters of an entry of an inline table. -/
structure EntryText (e : InlineEntry) : Prop where
  key : KeyText e.before e.path
  value : ValueText e.written e.meaning
  start : ∀ c ∈ e.written.head?, isSpace c = false
  after : ∀ c ∈ e.after, isSpace c = true

def entriesText : List InlineEntry → List Char
  | [] => ['\x7d']
  | [e] => e.before ++ (e.written ++ (e.after ++ ['\x7d']))
  | e :: rest => e.before ++ (e.written ++ (e.after ++ ',' :: entriesText rest))

section Entries

variable {e : InlineEntry} {es : List InlineEntry} {depth fuel : Nat}

theorem takeInlineEntries_last {value : Reader Toml} {start next : List Char} {path : List String}
    {v : Toml} (hkey : takeKeyAndSign cs = some (path, start))
    (hvalue : value start = some (v, next)) (hnext : next.dropWhile isSpace = '\x7d' :: rest) :
    takeInlineEntries value (fuel + 1) cs = some ([⟨readPart cs start, path, v,
      readPart start next, readPart next ('\x7d' :: rest)⟩], rest) := by
  simp only [takeInlineEntries, hkey, Option.bind_eq_bind, Option.bind_some, hvalue, hnext]
  rfl

theorem takeInlineEntries_more {value : Reader Toml} {start next others : List Char}
    {path : List String} {v : Toml} (hkey : takeKeyAndSign cs = some (path, start))
    (hvalue : value start = some (v, next)) (hnext : next.dropWhile isSpace = ',' :: others)
    (hothers : takeInlineEntries value fuel others = some (es, rest)) :
    takeInlineEntries value (fuel + 1) cs = some (⟨readPart cs start, path, v,
      readPart start next, readPart next (',' :: others)⟩ :: es, rest) := by
  simp only [takeInlineEntries, hkey, Option.bind_eq_bind, Option.bind_some, hvalue, hnext, hothers]
  rfl

theorem dropWhile_space {m : List Char} {c : Char} (hm : ∀ c ∈ m, isSpace c = true)
    (hc : isSpace c = false) : (m ++ c :: rest).dropWhile isSpace = c :: rest := by
  rw [List.dropWhile_append_of_pos hm, List.dropWhile_cons, hc]
  rfl

theorem ends_space {m : List Char} {c : Char} (hm : ∀ c ∈ m, isSpace c = true)
    (hspace : isSpace c = false) (hc : endsPlain c = true) : Ends (m ++ c :: rest) := by
  intro d hd
  rw [dropWhile_space hm hspace] at hd
  cases hd
  exact hc

theorem EntryText.readKey (h : EntryText e) (rest : List Char) :
    takeKeyAndSign (e.before ++ (e.written ++ rest)) = some (e.path, e.written ++ rest) := by
  refine h.key.read _ (dropWhile_of_head fun c hc => h.start c ?_)
  obtain ⟨d, written, hwritten⟩ := List.exists_cons_of_ne_nil h.value.ne_nil
  rw [hwritten] at hc ⊢
  exact hc

theorem takeInlineEntries_written (hne : es ≠ []) (h : ∀ e ∈ es, EntryText e)
    (hdepth : ∀ e ∈ es, e.written.length ≤ depth) (hfuel : es.length ≤ fuel) (rest : List Char) :
    takeInlineEntries (takeValue depth) fuel (entriesText es ++ rest) = some (es, rest) := by
  induction es generalizing fuel with
  | nil => exact absurd rfl hne
  | cons e es ih =>
    obtain ⟨fuel, rfl⟩ : ∃ n, fuel = n + 1 :=
      Nat.exists_eq_add_one.mpr (Nat.lt_of_lt_of_le (by simp) hfuel)
    have he := h e List.mem_cons_self
    have hvalue {c : Char} (hspace : isSpace c = false) (hc : endsPlain c = true)
        (tail : List Char) :=
      he.value.read depth (e.after ++ c :: tail) (hdepth e List.mem_cons_self)
        (ends_space he.after hspace hc)
    cases es with
    | nil =>
      have hcs : entriesText [e] ++ rest =
          e.before ++ (e.written ++ (e.after ++ '\x7d' :: rest)) := by simp [entriesText]
      rw [hcs, takeInlineEntries_last (he.readKey _) (hvalue rfl rfl rest)
        (dropWhile_space he.after rfl)]
      simp only [readPart_append]
    | cons e' es =>
      have hothers := ih (List.cons_ne_nil e' es)
        (fun other hother => h other (List.mem_cons_of_mem e hother))
        (fun other hother => hdepth other (List.mem_cons_of_mem e hother))
        (Nat.le_of_succ_le_succ hfuel)
      have hcs : entriesText (e :: e' :: es) ++ rest =
          e.before ++ (e.written ++ (e.after ++ ',' :: (entriesText (e' :: es) ++ rest))) := by
        simp [entriesText]
      rw [hcs, takeInlineEntries_more (he.readKey _) (hvalue rfl rfl _)
        (dropWhile_space he.after rfl) hothers]
      simp only [readPart_append]

theorem takeInlineEntries_text {value : Reader Toml} (hvalue : ReadsTexts value)
    (h : takeInlineEntries value fuel cs = some (es, rest)) :
    es ≠ [] ∧ cs = entriesText es ++ rest ∧ ∀ e ∈ es, EntryText e := by
  induction fuel generalizing cs es with
  | zero => cases h
  | succ fuel ih =>
    obtain ⟨⟨path, start⟩, hkey, h⟩ := Option.bind_eq_some_iff.mp h
    obtain ⟨⟨v, next⟩, hread, h⟩ := Option.bind_eq_some_iff.mp h
    obtain ⟨hstart, before, rfl, hbefore⟩ := takeKeyAndSign_text hkey
    have hentry {c : Char} {others : List Char} (hnext : next.dropWhile isSpace = c :: others)
        (hc : endsPlain c = true) : ∃ written after, start = written ++ next ∧
          next = after ++ c :: others ∧ EntryText ⟨before, path, v, written, after⟩ := by
      have hends : Ends next := fun d hd => by
        rw [hnext] at hd
        cases hd
        exact hc
      obtain ⟨written, rfl, hwritten⟩ := hvalue hread hends
      obtain ⟨after, rfl, hafter, -⟩ := dropWhile_exact hnext
      refine ⟨written, after, rfl, rfl, hbefore, hwritten, fun d hd => ?_, hafter⟩
      obtain ⟨tail, rfl⟩ := List.head?_eq_some_iff.mp hd
      exact head_dropWhile hstart
    dsimp only at h
    split at h
    · next tail hnext =>
      cases h
      obtain ⟨written, after, rfl, rfl, htext⟩ := hentry hnext rfl
      simp only [hnext, readPart_append]
      refine ⟨List.cons_ne_nil _ _, by simp [entriesText], ?_⟩
      simpa using htext
    · next tail hnext =>
      obtain ⟨⟨others, rest'⟩, hothers, h⟩ := Option.bind_eq_some_iff.mp h
      cases h
      obtain ⟨written, after, rfl, rfl, htext⟩ := hentry hnext rfl
      obtain ⟨hne, rfl, hall⟩ := ih hothers
      simp only [hnext, readPart_append]
      obtain ⟨e, es, rfl⟩ := List.exists_cons_of_ne_nil hne
      refine ⟨List.cons_ne_nil _ _, by simp [entriesText], ?_⟩
      simpa using ⟨htext, by simpa using hall⟩
    · cases h

theorem length_le_entriesText (es : List InlineEntry) :
    es.length ≤ (entriesText es).length ∧ ∀ e ∈ es, e.written.length ≤ (entriesText es).length := by
  induction es with
  | nil => exact ⟨Nat.zero_le _, by simp⟩
  | cons e es ih =>
    cases es with
    | nil => simp [entriesText]; omega
    | cons e' es =>
      simp only [entriesText, List.length_append, List.length_cons] at ih ⊢
      refine ⟨by omega, fun e'' h => ?_⟩
      rcases List.mem_cons.mp h with rfl | h
      · omega
      · have := ih.2 e'' h
        omega

/-- No key begins with a closing brace. -/
theorem takeKeyAndSign_brace (h : cs.dropWhile isSpace = '\x7d' :: rest) :
    takeKeyAndSign cs = none := by
  have hname : takeName ('\x7d' :: rest) = none := rfl
  rw [takeKeyAndSign, takeKey, h, hname]
  rfl

theorem takeInline_entries {value : Reader Toml} {path : List String} {start : List Char}
    (h : takeKeyAndSign cs = some (path, start)) :
    takeInline value cs = takeInlineEntries value (cs.length + 1) cs := by
  unfold takeInline
  split
  · next hbrace =>
    rw [takeKeyAndSign_brace hbrace] at h
    cases h
  · rfl

/-- The entries of a table are read again. -/
theorem takeInline_written (hne : es ≠ []) (h : ∀ e ∈ es, EntryText e)
    (hdepth : (entriesText es).length ≤ depth) (rest : List Char) :
    takeInline (takeValue depth) (entriesText es ++ rest) = some (es, rest) := by
  have hlength := length_le_entriesText es
  obtain ⟨e, es, rfl⟩ := List.exists_cons_of_ne_nil hne
  have he := h e List.mem_cons_self
  obtain ⟨tail, htail⟩ : ∃ tail, entriesText (e :: es) = e.before ++ (e.written ++ tail) := by
    cases es <;> exact ⟨_, rfl⟩
  have hkey : takeKeyAndSign (entriesText (e :: es) ++ rest) =
      some (e.path, e.written ++ (tail ++ rest)) := by
    rw [htail, List.append_assoc, List.append_assoc]
    exact he.readKey _
  rw [takeInline_entries hkey]
  refine takeInlineEntries_written hne h (fun e' he' => ?_) ?_ rest
  · exact Nat.le_trans (hlength.2 e' he') hdepth
  · rw [List.length_append]
    omega

theorem takeInline_empty {value : Reader Toml} {space : List Char}
    (hspace : ∀ c ∈ space, isSpace c = true) :
    takeInline value (space ++ '\x7d' :: rest) = some ([], rest) := by
  rw [takeInline, dropWhile_space hspace rfl]
  rfl

def InlineText (m : List Char) (es : List InlineEntry) : Prop :=
  (es = [] ∧ ∃ space, (∀ c ∈ space, isSpace c = true) ∧ m = space ++ ['\x7d']) ∨
    es ≠ [] ∧ (∀ e ∈ es, EntryText e) ∧ m = entriesText es

theorem InlineText.read {m : List Char} (h : InlineText m es) (hdepth : m.length ≤ depth)
    (rest : List Char) : takeInline (takeValue depth) (m ++ rest) = some (es, rest) := by
  rcases h with ⟨rfl, space, hspace, rfl⟩ | ⟨hne, htexts, rfl⟩
  · rw [List.append_assoc]
    exact takeInline_empty hspace
  · exact takeInline_written hne htexts hdepth rest

theorem takeInline_text {value : Reader Toml} (hvalue : ReadsTexts value)
    (h : takeInline value cs = some (es, rest)) : ∃ m, cs = m ++ rest ∧ InlineText m es := by
  unfold takeInline at h
  split at h
  · next hbrace =>
    cases h
    obtain ⟨space, rfl, hspace, -⟩ := dropWhile_exact hbrace
    exact ⟨space ++ ['\x7d'], by simp, .inl ⟨rfl, space, hspace, rfl⟩⟩
  · obtain ⟨hne, rfl, htexts⟩ := takeInlineEntries_text hvalue h
    exact ⟨entriesText es, rfl, .inr ⟨hne, htexts, rfl⟩⟩

end Entries

/-! ## All values -/

theorem takeValue_scalar {depth : Nat}
    (h : ∀ c ∈ cs.head?, c ≠ '"' ∧ c ≠ '\'' ∧ c ≠ '[' ∧ c ≠ '\x7b') :
    takeValue (depth + 1) cs = takeScalar cs := by
  rw [takeValue]
  all_goals
    intro tail hcs
    have hhead := h _ (by rw [hcs]; rfl)
    simp at hhead

theorem takeString_text {c : Char} {s : String} (hc : c = '"' ∨ c = '\'') {tail : List Char}
    (h : takeString (c :: tail) = some (s, rest)) :
    ∃ m, c :: tail = m ++ rest ∧ ValueText m (.text s) := by
  obtain ⟨m, hne, hcs, hm⟩ := takeString_exact h
  refine ⟨m, hcs, hne, fun depth rest' hdepth hrest => ?_⟩
  have hagain := hm rest' (hrest.head? '"' rfl) (hrest.head? '\'' rfl)
  obtain ⟨d, m, rfl⟩ := List.exists_cons_of_ne_nil hne
  obtain ⟨depth, rfl⟩ : ∃ n, depth = n + 1 :=
    Nat.exists_eq_add_one.mpr (Nat.lt_of_lt_of_le (by simp) hdepth)
  obtain ⟨rfl, -⟩ := List.cons.inj hcs
  have hstep : takeValue (depth + 1) (c :: m ++ rest') =
      (takeString (c :: m ++ rest')).map fun p => (.text p.1, p.2) := by
    rcases hc with rfl | rfl <;> rfl
  rw [hstep, hagain]
  rfl

theorem ItemsText.value {m : List Char} {items : List Toml} (h : ItemsText m items) :
    ValueText ('[' :: m) (.array items) := by
  refine ⟨List.cons_ne_nil _ _, fun depth rest hdepth _ => ?_⟩
  obtain ⟨depth, rfl⟩ : ∃ n, depth = n + 1 :=
    Nat.exists_eq_add_one.mpr (Nat.lt_of_lt_of_le (by simp) hdepth)
  have hread := h.read depth ((m ++ rest).length + 1) rest (Nat.le_of_succ_le_succ hdepth)
    (by simp; omega)
  exact congrArg (Option.map _) hread

theorem InlineText.value {m : List Char} {es : List InlineEntry} {v : Toml} (h : InlineText m es)
    (hv : inlineMeaning [] [] es = some v) : ValueText ('\x7b' :: m) v := by
  refine ⟨List.cons_ne_nil _ _, fun depth rest hdepth _ => ?_⟩
  obtain ⟨depth, rfl⟩ : ∃ n, depth = n + 1 :=
    Nat.exists_eq_add_one.mpr (Nat.lt_of_lt_of_le (by simp) hdepth)
  have hstep : takeValue (depth + 1) ('\x7b' :: m ++ rest) =
      takeInline (takeValue depth) (m ++ rest) >>= fun p =>
        inlineMeaning [] [] p.1 >>= fun v => some (v, p.2) := rfl
  rw [hstep, h.read (Nat.le_of_succ_le_succ hdepth)]
  exact Option.bind_eq_some_iff.mpr ⟨_, rfl, Option.bind_eq_some_iff.mpr ⟨v, hv, rfl⟩⟩

/-- A value has characters of its own, read as that value wherever one can end after them. -/
theorem takeValue_text (depth : Nat) : ReadsTexts (takeValue depth) := by
  induction depth with
  | zero =>
    intro cs v rest h
    cases h
  | succ depth ih =>
    intro cs v rest h hends
    unfold takeValue at h
    split at h
    · obtain ⟨⟨s, next⟩, hread, h⟩ := Option.map_eq_some_iff.mp h
      cases h
      exact takeString_text (.inl rfl) hread
    · obtain ⟨⟨s, next⟩, hread, h⟩ := Option.map_eq_some_iff.mp h
      cases h
      exact takeString_text (.inr rfl) hread
    · obtain ⟨⟨items, next⟩, hread, h⟩ := Option.map_eq_some_iff.mp h
      cases h
      obtain ⟨m, rfl, hm⟩ := takeItems_text ih hread
      exact ⟨'[' :: m, rfl, hm.value⟩
    · obtain ⟨⟨es, next⟩, hread, h⟩ := Option.bind_eq_some_iff.mp h
      obtain ⟨v, hv, h⟩ := Option.bind_eq_some_iff.mp h
      cases h
      obtain ⟨m, rfl, hm⟩ := takeInline_text ih hread
      exact ⟨'\x7b' :: m, rfl, hm.value hv⟩
    · next hdouble hsingle hbracket hbrace =>
      obtain ⟨m, hne, rfl, hm⟩ := takeScalar_exact h
      refine ⟨m, rfl, hne, fun depth' rest' hdepth hrest => ?_⟩
      obtain ⟨c, m, rfl⟩ := List.exists_cons_of_ne_nil hne
      obtain ⟨depth', rfl⟩ : ∃ n, depth' = n + 1 :=
        Nat.exists_eq_add_one.mpr (Nat.lt_of_lt_of_le (by simp) hdepth)
      rw [takeValue_scalar, hm rest' hrest]
      intro d hd
      cases hd
      refine ⟨?_, ?_, ?_, ?_⟩
      · rintro rfl
        exact hdouble _ rfl
      · rintro rfl
        exact hsingle _ rfl
      · rintro rfl
        exact hbracket _ rfl
      · rintro rfl
        exact hbrace _ rfl

/-! ## Tables -/

theorem takeBased_ne_table {base : Nat} {v : Toml} (h : takeBased base cs = some (v, rest))
    (inner : List (String × Toml)) : v ≠ .table inner := by
  unfold takeBased at h
  split at h
  · cases h
  · cases h
    simp

theorem takeNumber_ne_table {v : Toml} (h : takeNumber cs = some (v, rest))
    (inner : List (String × Toml)) : v ≠ .table inner := by
  unfold takeNumber at h
  rw [Option.orElse_eq_some, Option.orElse_eq_some] at h
  rcases h with hbased | ⟨-, hdecimal | ⟨-, hnamed⟩⟩
  · split at hbased
    · exact takeBased_ne_table hbased inner
    · exact takeBased_ne_table hbased inner
    · exact takeBased_ne_table hbased inner
    · cases hbased
  · obtain ⟨⟨whole, next⟩, -, hdecimal⟩ := Option.bind_eq_some_iff.mp hdecimal
    dsimp only at hdecimal
    split at hdecimal
    all_goals
      cases hdecimal
      simp
  · unfold takeNamed at hnamed
    dsimp only at hnamed
    split at hnamed
    · cases hnamed
      simp
    · cases hnamed
      simp
    · cases hnamed

theorem takeScalar_ne_table {v : Toml} (h : takeScalar cs = some (v, rest))
    (inner : List (String × Toml)) : v ≠ .table inner := by
  unfold takeScalar at h
  split at h
  · next hplain =>
    cases h
    unfold takePlain at hplain
    split at hplain
    · cases hplain
      simp
    · cases hplain
      simp
    · split at hplain
      · obtain ⟨next, -, hplain⟩ := Option.map_eq_some_iff.mp hplain
        cases hplain
        simp
      · exact takeNumber_ne_table hplain inner
  · cases h

/-- Only what is written between braces is a table. -/
theorem ValueText.brace {m : List Char} {inner : List (String × Toml)}
    (h : ValueText m (.table inner)) : ∃ tail, m = '\x7b' :: tail := by
  have hread := h.read (m.length + 1) [] (Nat.le_succ _) ends_nil
  rw [List.append_nil] at hread
  unfold takeValue at hread
  split at hread
  · obtain ⟨p, -, hread⟩ := Option.map_eq_some_iff.mp hread
    cases hread
  · obtain ⟨p, -, hread⟩ := Option.map_eq_some_iff.mp hread
    cases hread
  · obtain ⟨p, -, hread⟩ := Option.map_eq_some_iff.mp hread
    cases hread
  · exact ⟨_, rfl⟩
  · exact absurd rfl (takeScalar_ne_table hread inner)

end VirtualUsers.Toml
