import VirtualUsers.Proofs.ValueTexts
import VirtualUsers.Registry
/-!
# Texts of lines

The lines of a document can be taken out of it and put into another one: each is read as that line
wherever a line begins, as long as it has a line end. The last line of a document may have none, and
gets one before others follow it.
-/

namespace VirtualUsers.Toml

open Registry (endLine withEnd)
open Text (dropWhile_of_head head_dropWhile)

variable {cs rest : List Char}

/-! ## Ends of lines -/

/-- What may follow the last thing that a line says. -/
structure EndText (m : List Char) : Prop where
  noLine : '\n' ∉ m
  skip : ∀ rest, AtLineEnd rest → skipLineRest (m ++ rest) = some (rest.drop 1)
  ends : ∀ rest, AtLineEnd rest → Ends (m ++ rest)

theorem AtLineEnd.cases (h : AtLineEnd rest) : rest = [] ∨ ∃ tail, rest = '\n' :: tail := by
  cases rest with
  | nil => exact .inl rfl
  | cons c tail => exact .inr ⟨tail, by rw [h c rfl]⟩

theorem atLineEnd_nil : AtLineEnd [] := by
  intro c hc
  cases hc

theorem atLineEnd_line (rest : List Char) : AtLineEnd ('\n' :: rest) := by
  rintro c ⟨⟩
  rfl

theorem AtLineEnd.ends (h : AtLineEnd rest) : Ends rest := by
  rcases h.cases with rfl | ⟨tail, rfl⟩
  · exact ends_nil
  · exact ends_cons rfl rfl

theorem line_notMem_space {m : List Char} (h : ∀ c ∈ m, isSpace c = true) : '\n' ∉ m :=
  fun hmem => absurd (h _ hmem) (by decide)

theorem skipLineRest_of {cs start : List Char} (h : skipComment (cs.dropWhile isSpace) = some start)
    (hline : AtLineEnd start) : skipLineRest cs = some (start.drop 1) := by
  rw [skipLineRest, h]
  rcases hline.cases with rfl | ⟨tail, rfl⟩ <;> rfl

theorem skipLineRest_dropWhile (cs : List Char) :
    skipLineRest (cs.dropWhile isSpace) = skipLineRest cs := by
  simp only [skipLineRest, List.dropWhile_idempotent]

theorem AtLineEnd.dropWhile (h : AtLineEnd rest) : rest.dropWhile isSpace = rest := by
  rcases h.cases with rfl | ⟨tail, rfl⟩ <;> rfl

theorem AtLineEnd.skipComment (h : AtLineEnd rest) : skipComment rest = some rest := by
  rcases h.cases with rfl | ⟨tail, rfl⟩ <;> rfl

theorem EndText.space {m : List Char} (h : ∀ c ∈ m, isSpace c = true) : EndText m := by
  refine ⟨line_notMem_space h, fun rest hrest => skipLineRest_of ?_ hrest, fun rest hrest => ?_⟩
  · rw [List.dropWhile_append_of_pos h, hrest.dropWhile, hrest.skipComment]
  · rw [Ends, List.dropWhile_append_of_pos h]
    exact hrest.ends

theorem EndText.comment {space m : List Char} (hspace : ∀ c ∈ space, isSpace c = true)
    (hline : '\n' ∉ m)
    (h : ∀ rest, AtLineEnd rest → Toml.skipComment ('#' :: (m ++ rest)) = some rest) :
    EndText (space ++ '#' :: m) := by
  have hstart (rest : List Char) : (space ++ '#' :: m ++ rest).dropWhile isSpace =
      '#' :: (m ++ rest) := by
    rw [List.append_assoc]
    exact dropWhile_space hspace rfl
  refine ⟨?_, fun rest hrest => skipLineRest_of ?_ hrest, fun rest _ c hc => ?_⟩
  · simp [line_notMem_space hspace, hline]
  · rw [hstart, h rest hrest]
  · rw [hstart] at hc
    cases hc
    rfl

theorem skipLineRest_text (h : skipLineRest cs = some rest) : ∃ m next, cs = m ++ next ∧
    AtLineEnd next ∧ rest = next.drop 1 ∧ EndText m := by
  obtain ⟨next, hskip, h⟩ := Option.bind_eq_some_iff.mp h
  have hnext : AtLineEnd next ∧ rest = next.drop 1 := by
    split at h
    · cases h
      exact ⟨atLineEnd_line _, rfl⟩
    · cases h
      exact ⟨atLineEnd_nil, rfl⟩
    · cases h
  generalize hstart : cs.dropWhile isSpace = start at hskip
  obtain ⟨space, rfl, hspace, -⟩ := dropWhile_exact hstart
  by_cases hcomment : ∃ tail, start = '#' :: tail
  · obtain ⟨tail, rfl⟩ := hcomment
    obtain ⟨m, hline, rfl, -, hm⟩ := skipComment_exact hskip
    exact ⟨space ++ '#' :: m, next, by simp, hnext.1, hnext.2, EndText.comment hspace hline hm⟩
  · have hsame : start = next := by
      unfold skipComment at hskip
      split at hskip
      · exact absurd ⟨_, rfl⟩ hcomment
      · exact Option.some.inj hskip
    exact ⟨space, next, hsame ▸ rfl, hnext.1, hnext.2, EndText.space hspace⟩

/-! ## Lines -/

/-- A line up to its end. `make` gives the line with a given end, of which `tail` is what comes
before the line end. -/
inductive LineText : (List Char → Line) → List Char → Prop where
  | blank {space : List Char} : (∀ c ∈ space, isSpace c = true) → LineText .blank space
  | comment {tail : List Char} : EndText tail → (tail.dropWhile isSpace).head? = some '#' →
      LineText .comment tail
  | header {indent written tail : List Char} {path : List String} {many : Bool} :
      (∀ c ∈ indent, isSpace c = true) → written.head? = some '[' →
      (∀ rest, takeHeader (written ++ rest) = some ((path, many), rest)) → EndText tail →
      LineText (.header indent written path many) tail
  | entry {indent key written tail : List Char} {path : List String} {v : Toml} :
      (∀ c ∈ indent, isSpace c = true) → (∀ c ∈ key.head?, isSpace c = false) → KeyText key path →
      ValueText written v → (∀ c ∈ written.head?, isSpace c = false) → EndText tail →
      LineText (.entry (indent ++ key) path v written) tail

theorem KeyText.head {m : List Char} {path : List String} (h : KeyText m path) :
    ∀ c ∈ m.head?, isSpace c = false → c ≠ '\n' ∧ c ≠ '#' ∧ c ≠ '[' := by
  intro c hc hspace
  obtain ⟨m, rfl⟩ := List.head?_eq_some_iff.mp hc
  have hread := h.read ['x'] rfl
  have hnone (hname : ∀ tail, takeName (c :: tail) = none) : False := by
    have hstart : (c :: m ++ ['x']).dropWhile isSpace = c :: (m ++ ['x']) := by
      rw [List.cons_append, List.dropWhile_cons, hspace]
      rfl
    rw [takeKeyAndSign, takeKey, hstart, hname] at hread
    cases hread
  refine ⟨?_, ?_, ?_⟩
  all_goals
    rintro rfl
    exact hnone fun _ => rfl

theorem readPart_line (tail rest : List Char) :
    readPart (tail ++ rest) (rest.drop 1) = tail ++ rest.take 1 := by
  have hcs : tail ++ rest = tail ++ rest.take 1 ++ rest.drop 1 := by
    rw [List.append_assoc, List.take_append_drop]
  rw [hcs, readPart_append]

theorem takeLine_comment {start : List Char} (hstart : cs.dropWhile isSpace = start)
    (hfirst : start.head? = some '#') (hskip : skipLineRest start = some rest) :
    takeLine cs = some (.comment (readPart cs rest), rest) := by
  obtain ⟨tail, rfl⟩ := List.head?_eq_some_iff.mp hfirst
  simp only [takeLine, hstart, hskip]
  rfl

theorem takeLine_header {start next : List Char} {path : List String} {many : Bool}
    (hstart : cs.dropWhile isSpace = start) (hfirst : start.head? = some '[')
    (hheader : takeHeader start = some ((path, many), next))
    (hskip : skipLineRest next = some rest) :
    takeLine cs = some (.header (readPart cs start) (readPart start next) path many
      (readPart next rest), rest) := by
  obtain ⟨tail, rfl⟩ := List.head?_eq_some_iff.mp hfirst
  simp only [takeLine, hstart, hheader, Option.bind_eq_bind, Option.bind_some, hskip]
  rfl

theorem takeLine_keyed {start value next : List Char} {path : List String} {v : Toml}
    (hstart : cs.dropWhile isSpace = start)
    (hfirst : ∃ c ∈ start.head?, c ≠ '\n' ∧ c ≠ '#' ∧ c ≠ '[')
    (hkey : takeKeyAndSign start = some (path, value)) (hvalue : readValue value = some (v, next))
    (hskip : skipLineRest next = some rest) : takeLine cs = some (.entry (readPart cs value) path v
      (readPart value next) (readPart next rest), rest) := by
  obtain ⟨c, hc, hline, hcomment, hbracket⟩ := hfirst
  obtain ⟨tail, rfl⟩ := List.head?_eq_some_iff.mp hc
  unfold takeLine
  rw [hstart]
  dsimp only
  split
  · next heq => cases heq
  · next heq => exact absurd (List.cons.inj heq).1 hline
  · next heq => exact absurd (List.cons.inj heq).1 hcomment
  · next heq => exact absurd (List.cons.inj heq).1 hbracket
  · simp only [hkey, Option.bind_eq_bind, Option.bind_some, hvalue, hskip]
    rfl

theorem dropWhile_indent {indent : List Char} (hindent : ∀ c ∈ indent, isSpace c = true)
    (hcs : ∀ c ∈ cs.head?, isSpace c = false) : (indent ++ cs).dropWhile isSpace = cs := by
  rw [List.dropWhile_append_of_pos hindent, dropWhile_of_head hcs]

theorem LineText.read {make : List Char → Line} {tail : List Char} (h : LineText make tail)
    (hrest : AtLineEnd rest) :
    takeLine ((make tail).text ++ rest) = some (make (tail ++ rest.take 1), rest.drop 1) := by
  cases h with
  | blank hspace =>
    have hstart : (tail ++ rest).dropWhile isSpace = rest := by
      rw [List.dropWhile_append_of_pos hspace, hrest.dropWhile]
    change takeLine (tail ++ rest) = _
    rcases hrest.cases with rfl | ⟨rest, rfl⟩
    · simp only [takeLine, hstart, readPart_append]
      simp
    · simp only [takeLine, hstart, readPart_append]
      rfl
  | comment htail hfirst =>
    have hne : tail.dropWhile isSpace ≠ [] := by
      intro hnil
      rw [hnil] at hfirst
      cases hfirst
    have hstart : (tail ++ rest).dropWhile isSpace = tail.dropWhile isSpace ++ rest := by
      rw [List.dropWhile_append, if_neg (by simpa using hne)]
    have hskip : skipLineRest (tail.dropWhile isSpace ++ rest) = some (rest.drop 1) := by
      rw [← hstart, skipLineRest_dropWhile, htail.skip rest hrest]
    change takeLine (tail ++ rest) = _
    rw [takeLine_comment hstart (by rw [List.head?_append_of_ne_nil _ hne, hfirst]) hskip, readPart_line]
  | @header indent written _ path many hindent hfirst hheader htail =>
    have hne : written ≠ [] := by
      rintro rfl
      cases hfirst
    have hhead : (written ++ (tail ++ rest)).head? = some '[' := by
      rw [List.head?_append_of_ne_nil _ hne, hfirst]
    have hstart : (indent ++ (written ++ (tail ++ rest))).dropWhile isSpace =
        written ++ (tail ++ rest) :=
      dropWhile_indent hindent fun c hc => by
        rw [hhead] at hc
        cases hc
        rfl
    have hcs : (Line.header indent written path many tail).text ++ rest =
        indent ++ (written ++ (tail ++ rest)) := by simp [Line.text]
    rw [hcs, takeLine_header hstart hhead (hheader _) (htail.skip rest hrest), readPart_append,
      readPart_append, readPart_line]
  | @entry indent key written _ path v hindent hkey htext hvalue hwritten htail =>
    have hvalueHead : (written ++ (tail ++ rest)).head? = written.head? :=
      List.head?_append_of_ne_nil _ hvalue.ne_nil
    have hkeyHead : (key ++ (written ++ (tail ++ rest))).head? = key.head? :=
      List.head?_append_of_ne_nil _ htext.ne_nil
    have hstart : (indent ++ (key ++ (written ++ (tail ++ rest)))).dropWhile isSpace =
        key ++ (written ++ (tail ++ rest)) :=
      dropWhile_indent hindent (hkeyHead ▸ hkey)
    have hread : takeKeyAndSign (key ++ (written ++ (tail ++ rest))) =
        some (path, written ++ (tail ++ rest)) :=
      htext.read _ (dropWhile_of_head (hvalueHead ▸ hwritten))
    have hmeaning : readValue (written ++ (tail ++ rest)) = some (v, tail ++ rest) :=
      hvalue.read _ _ (by simp; omega) (htail.ends rest hrest)
    have hfirst : ∃ c ∈ (key ++ (written ++ (tail ++ rest))).head?,
        c ≠ '\n' ∧ c ≠ '#' ∧ c ≠ '[' := by
      obtain ⟨c, key, rfl⟩ := List.exists_cons_of_ne_nil htext.ne_nil
      exact ⟨c, rfl, htext.head c rfl (hkey c rfl)⟩
    have hcs : (Line.entry (indent ++ key) path v written tail).text ++ rest =
        indent ++ (key ++ (written ++ (tail ++ rest))) := by simp [Line.text]
    have hbefore : indent ++ (key ++ (written ++ (tail ++ rest))) =
        indent ++ key ++ (written ++ (tail ++ rest)) := by simp
    rw [hcs, takeLine_keyed hstart hfirst hread hmeaning (htail.skip rest hrest), hbefore,
      readPart_append, readPart_append, readPart_line]

/-- A line that is read has a text of its own, and at most a line end after it. -/
theorem takeLine_text {l : Line} (h : takeLine cs = some (l, rest)) : ∃ make tail next,
    LineText make tail ∧ AtLineEnd next ∧ cs = (make tail).text ++ next ∧
      l = make (tail ++ next.take 1) ∧ rest = next.drop 1 := by
  suffices hshape : ∃ make tail next, LineText make tail ∧ AtLineEnd next ∧
      cs = (make tail).text ++ next by
    obtain ⟨make, tail, next, htext, hnext, rfl⟩ := hshape
    rw [htext.read hnext] at h
    cases h
    exact ⟨make, tail, next, htext, hnext, rfl, rfl, rfl⟩
  unfold takeLine at h
  generalize hstart : cs.dropWhile isSpace = start at h
  obtain ⟨indent, rfl, hindent, -⟩ := dropWhile_exact hstart
  have hfirst : ∀ c ∈ start.head?, isSpace c = false := by
    intro c hc
    obtain ⟨tail, rfl⟩ := List.head?_eq_some_iff.mp hc
    exact head_dropWhile hstart
  dsimp only at h
  split at h
  · exact ⟨_, indent, [], .blank hindent, atLineEnd_nil, rfl⟩
  · exact ⟨_, indent, _, .blank hindent, atLineEnd_line _, rfl⟩
  · obtain ⟨others, hskip, h⟩ := Option.bind_eq_some_iff.mp h
    rw [← hstart, skipLineRest_dropWhile] at hskip
    obtain ⟨tail, next, hcs, hnext, -, htail⟩ := skipLineRest_text hskip
    rw [hcs] at hstart
    refine ⟨_, tail, next, .comment htail ?_, hnext, hcs⟩
    by_cases hspace : tail.dropWhile isSpace = []
    · rw [List.dropWhile_append, hspace] at hstart
      rcases hnext.cases with rfl | ⟨next, rfl⟩ <;> cases hstart
    · rw [List.dropWhile_append, if_neg (by simpa using hspace)] at hstart
      rw [← List.head?_append_of_ne_nil _ hspace, hstart]
      rfl
  · obtain ⟨⟨⟨path, many⟩, next⟩, hheader, h⟩ := Option.bind_eq_some_iff.mp h
    obtain ⟨others, hskip, h⟩ := Option.bind_eq_some_iff.mp h
    obtain ⟨written, hcs, hread⟩ := takeHeader_exact hheader
    obtain ⟨tail, next', rfl, hnext, -, htail⟩ := skipLineRest_text hskip
    have hwritten : written.head? = some '[' := by
      cases written with
      | nil => cases hread []
      | cons c written => rw [(List.cons.inj hcs).1]; rfl
    exact ⟨_, tail, next', .header hindent hwritten hread htail, hnext, by
      rw [hcs]; simp [Line.text]⟩
  · obtain ⟨⟨path, value⟩, hkey, h⟩ := Option.bind_eq_some_iff.mp h
    obtain ⟨⟨v, next⟩, hvalue, h⟩ := Option.bind_eq_some_iff.mp h
    obtain ⟨others, hskip, h⟩ := Option.bind_eq_some_iff.mp h
    obtain ⟨hstartValue, key, rfl, hkeyText⟩ := takeKeyAndSign_text hkey
    obtain ⟨tail, next', rfl, hnext, -, htail⟩ := skipLineRest_text hskip
    obtain ⟨written, rfl, hwritten⟩ := takeValue_text _ hvalue (htail.ends next' hnext)
    refine ⟨_, tail, next', .entry hindent (fun c hc => hfirst c ?_) hkeyText hwritten
      (fun c hc => ?_) htail, hnext, by simp [Line.text]⟩
    · rw [List.head?_append_of_ne_nil _ hkeyText.ne_nil]
      exact hc
    · rw [← List.head?_append_of_ne_nil _ hwritten.ne_nil] at hc
      obtain ⟨others, hothers⟩ := List.head?_eq_some_iff.mp hc
      rw [hothers] at hstartValue
      exact head_dropWhile hstartValue

/-! ## Documents -/

def Closed (l : Line) : Prop :=
  ∃ make tail, LineText make tail ∧ l = make (tail ++ ['\n'])

def Whole (l : Line) : Prop :=
  Closed l ∨ ∃ make tail, LineText make tail ∧ l = make tail ∧ l.text ≠ []

/-- The lines are read as they are, since all but the last one have a line end. -/
structure Written (d : Document) : Prop where
  closed : d.Pairwise fun l _ => Closed l
  whole : ∀ l ∈ d, Whole l

variable {l : Line} {d : Document} {make : List Char → Line} {tail : List Char}

theorem LineText.text_append (h : LineText make tail) (m m' : List Char) :
    (make (m ++ m')).text = (make m).text ++ m' := by
  cases h with
  | blank => rfl
  | comment => rfl
  | header => simp [Line.text]
  | entry => simp [Line.text]

theorem Closed.ne_nil (h : Closed l) : l.text ≠ [] := by
  obtain ⟨make, tail, htext, rfl⟩ := h
  rw [htext.text_append]
  simp

theorem Closed.read (h : Closed l) (rest : List Char) :
    takeLine (l.text ++ rest) = some (l, rest) := by
  obtain ⟨make, tail, htext, rfl⟩ := h
  rw [htext.text_append, List.append_assoc]
  exact htext.read (atLineEnd_line rest)

theorem Whole.ne_nil (h : Whole l) : l.text ≠ [] := by
  rcases h with h | ⟨make, tail, -, -, hne⟩
  · exact h.ne_nil
  · exact hne

theorem Whole.read (h : Whole l) : takeLine l.text = some (l, []) := by
  rcases h with h | ⟨make, tail, htext, rfl, -⟩
  · simpa using h.read []
  · simpa using htext.read atLineEnd_nil

theorem LineText.noLine (h : LineText make tail) : '\n' ∉ tail := by
  cases h with
  | blank hspace => exact line_notMem_space hspace
  | comment htail => exact htail.noLine
  | header _ _ _ htail => exact htail.noLine
  | entry _ _ _ _ _ htail => exact htail.noLine

theorem withEnd_closed {m : List Char} (h : '\n' ∉ m) :
    withEnd m = m ++ ['\n'] ∧ withEnd (m ++ ['\n']) = m ++ ['\n'] := by
  simp [withEnd, h]

theorem endLine_make (h : LineText make tail) (m : List Char) :
    endLine (make m) = make (withEnd m) := by
  cases h <;> rfl

theorem Closed.endLine (h : Closed l) : endLine l = l := by
  obtain ⟨make, tail, htext, rfl⟩ := h
  rw [endLine_make htext, (withEnd_closed htext.noLine).2]

theorem Whole.endLine (h : Whole l) : Closed (endLine l) := by
  rcases h with h | ⟨make, tail, htext, rfl, -⟩
  · rwa [h.endLine]
  · exact ⟨make, tail, htext, by rw [endLine_make htext, (withEnd_closed htext.noLine).1]⟩

theorem Written.sublist {d' : Document} (h : Written d) (hd : List.Sublist d' d) : Written d' :=
  ⟨h.closed.sublist hd, fun l hl => h.whole l (hd.subset hl)⟩

theorem Written.append {d' : Document} (hd : ∀ l ∈ d, Closed l) (h : Written d') :
    Written (d ++ d') := by
  refine ⟨List.pairwise_append.mpr ⟨?_, h.closed, fun l hl _ _ => hd l hl⟩, fun l hl => ?_⟩
  · exact List.Pairwise.imp_of_mem (fun hl _ _ => hd _ hl)
      (List.pairwise_of_forall fun _ _ => trivial)
  · rcases List.mem_append.mp hl with hl | hl
    · exact .inl (hd l hl)
    · exact h.whole l hl

theorem takeLines_cons {fuel : Nat} {c : Char} (h : takeLine (c :: cs) = some (l, rest)) :
    takeLines (fuel + 1) (c :: cs) = (takeLines fuel rest).map (l :: ·) := by
  rw [takeLines, h]
  · change (takeLines fuel rest >>= fun others => some (l :: others)) = _
    cases takeLines fuel rest <;> rfl
  · exact List.cons_ne_nil c cs

theorem takeLines_written {fuel : Nat} (h : Written d) (hfuel : d.length ≤ fuel) :
    takeLines fuel d.text = some d := by
  induction d generalizing fuel with
  | nil => cases fuel <;> rfl
  | cons l d ih =>
    obtain ⟨fuel, rfl⟩ : ∃ n, fuel = n + 1 :=
      Nat.exists_eq_add_one.mpr (Nat.lt_of_lt_of_le (by simp) hfuel)
    have hl := h.whole l List.mem_cons_self
    have hd : Written d := h.sublist (List.sublist_cons_self l d)
    have htext : Document.text (l :: d) = l.text ++ Document.text d := rfl
    have hread : takeLine (l.text ++ Document.text d) = some (l, Document.text d) := by
      cases d with
      | nil =>
        have hnil : Document.text [] = [] := rfl
        rw [hnil, List.append_nil, hl.read]
      | cons l' d =>
        exact ((List.pairwise_cons.mp h.closed).1 l' List.mem_cons_self).read _
    obtain ⟨c, cs, hcs⟩ := List.exists_cons_of_ne_nil
      (List.append_ne_nil_of_left_ne_nil hl.ne_nil (Document.text d))
    rw [htext]
    rw [hcs] at hread ⊢
    rw [takeLines_cons hread, ih hd (Nat.le_of_succ_le_succ hfuel)]
    rfl

theorem length_le_text (h : Written d) : d.length ≤ d.text.length := by
  induction d with
  | nil => exact Nat.le_refl 0
  | cons l d ih =>
    have hl := List.length_pos_iff.mpr (h.whole l List.mem_cons_self).ne_nil
    have hd := ih (h.sublist (List.sublist_cons_self l d))
    have htext : Document.text (l :: d) = l.text ++ Document.text d := rfl
    rw [htext, List.length_append, List.length_cons]
    omega

/-- A document is read as it is written. -/
theorem Written.parse (h : Written d) : Document.parse? d.text = some d :=
  takeLines_written h (Nat.le_succ_of_le (length_le_text h))

theorem written_of_takeLines {fuel : Nat} (h : takeLines fuel cs = some d) :
    d.text = cs ∧ Written d := by
  induction fuel generalizing cs d with
  | zero =>
    cases cs with
    | nil =>
      cases h
      exact ⟨rfl, List.Pairwise.nil, by simp⟩
    | cons c cs => cases h
  | succ fuel ih =>
    cases cs with
    | nil =>
      cases h
      exact ⟨rfl, List.Pairwise.nil, by simp⟩
    | cons c cs =>
      cases hline : takeLine (c :: cs) with
      | none => simp [takeLines, hline] at h
      | some p =>
        obtain ⟨l, rest⟩ := p
        rw [takeLines_cons hline] at h
        obtain ⟨others, hothers, rfl⟩ := Option.map_eq_some_iff.mp h
        obtain ⟨rfl, hwritten⟩ := ih hothers
        obtain ⟨make, tail, next, htext, hnext, hcs, rfl, hrest⟩ := takeLine_text hline
        rcases hnext.cases with rfl | ⟨next, rfl⟩
        · have hnone : others = [] := by
            cases others with
            | nil => rfl
            | cons l others =>
              have hne := (hwritten.whole l List.mem_cons_self).ne_nil
              simp [Document.text, hne] at hrest
          subst hnone
          have hmake : make (tail ++ List.take 1 []) = make tail :=
            congrArg make (List.append_nil tail)
          rw [List.append_nil] at hcs
          rw [hmake]
          refine ⟨?_, List.pairwise_singleton _ _, fun l hl => ?_⟩
          · simp [Document.text, hcs]
          · cases List.mem_singleton.mp hl
            exact .inr ⟨make, tail, htext, rfl, hcs ▸ List.cons_ne_nil c cs⟩
        · have hclosed : Closed (make (tail ++ ['\n'])) := ⟨make, tail, htext, rfl⟩
          have hothers : Document.text others = next := hrest
          refine ⟨?_, Written.append (d := [make (tail ++ ['\n'])]) (fun l hl => ?_) hwritten⟩
          · have hd : Document.text (make (tail ++ ['\n']) :: others) =
                (make (tail ++ ['\n'])).text ++ Document.text others := rfl
            change Document.text (make (tail ++ ['\n']) :: others) = c :: cs
            rw [hd, htext.text_append, hothers, hcs, List.append_assoc]
            rfl
          · cases List.mem_singleton.mp hl
            exact hclosed

/-- The lines that are read have the text that was read, and are written as they are read. -/
theorem written_of_parse (h : Document.parse? cs = some d) : d.text = cs ∧ Written d :=
  written_of_takeLines h

end VirtualUsers.Toml
