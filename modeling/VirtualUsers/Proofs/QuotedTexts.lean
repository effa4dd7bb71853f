import VirtualUsers.Proofs.EscapedTexts
import VirtualUsers.Toml.Document
/-!
# Quoted texts in documents

A text between quotes, as it is shown in messages, looks like a string of a document, and often is
one. Main statement: what a document reads there, and that it is the text itself if and only if
nothing in it needs an escape, or only escapes that basic strings have.
-/

namespace VirtualUsers

namespace Text

open Toml

/-! ## Characters between quotes -/

variable {quote c d : Char}

/-- The forms in which a character can be written between quotes. -/
inductive Escaped (quote c : Char) : List Char → Prop
  | marked (h : c = quote ∨ c = '\\') : Escaped quote c ['\\', c]
  | letter (d : Char) (h : (c, d) ∈ [('\n', 'n'), ('\r', 'r'), ('\t', 't')]) :
    Escaped quote c ['\\', d]
  | plain (hquote : c ≠ quote) (hbackslash : c ≠ '\\') (h : isPrintable c = true) :
    Escaped quote c [c]
  | number (d : Char) (width : Nat) (h : isPrintable c = false)
    (hletter : c ≠ '\n' ∧ c ≠ '\r' ∧ c ≠ '\t')
    (hwidth : d = 'x' ∧ width = 2 ∧ c.toNat < 0x100 ∨
      d = 'u' ∧ width = 4 ∧ 0x100 ≤ c.toNat ∧ c.toNat < 0x10000 ∨
      d = 'U' ∧ width = 8 ∧ 0x100 ≤ c.toNat) :
    Escaped quote c ('\\' :: d :: hex width c.toNat)

theorem escaped_escapeChar (quote c : Char) : Escaped quote c (escapeChar quote c) := by
  unfold escapeChar
  split
  · next cs hshort =>
    unfold shortEscape? at hshort
    split at hshort
    · next hmarked =>
      cases hshort
      exact .marked (by simpa using hmarked)
    · split at hshort
      iterate 3
        cases hshort
        exact .letter _ (by decide)
      cases hshort
  · next hshort =>
    unfold shortEscape? at hshort
    split at hshort
    · cases hshort
    · next hmarked =>
      simp only [Bool.or_eq_true, beq_iff_eq, not_or] at hmarked
      split at hshort
      iterate 3 cases hshort
      next hfeed hreturn htab =>
        split
        · next hprintable => exact .plain hmarked.1 hmarked.2 hprintable
        · next hprintable =>
          have hhidden : isPrintable c = false := by simpa using hprintable
          have hletter : c ≠ '\n' ∧ c ≠ '\r' ∧ c ≠ '\t' := ⟨hfeed, hreturn, htab⟩
          split
          · next hbyte => exact .number 'x' 2 hhidden hletter (.inl ⟨rfl, rfl, hbyte⟩)
          · next hbyte =>
            have hsize := Nat.le_of_not_lt hbyte
            split
            · next hwide =>
              exact .number 'u' 4 hhidden hletter (.inr (.inl ⟨rfl, rfl, hsize, hwide⟩))
            · exact .number 'U' 8 hhidden hletter (.inr (.inr ⟨rfl, rfl, hsize⟩))

theorem isControl_of_isPrintable (h : isPrintable c = true) : isControl c = false := by
  have hall : ∀ n < 128, isControl (Char.ofNat n) = true → isPrintable (Char.ofNat n) = false := by
    decide +kernel
  by_contra hcontrol
  rw [Bool.not_eq_false] at hcontrol
  have hc := hall c.toNat (toNat_of_isControl hcontrol)
  rw [Char.ofNat_toNat, h] at hc
  cases hc hcontrol

def IsQuote (quote : Char) : Prop :=
  quote = '\'' ∨ quote = '"'

theorem isQuote_quoteFor (cs : List Char) : IsQuote (quoteFor cs) := by
  unfold quoteFor
  split
  · exact .inr rfl
  · exact .inl rfl

/-- What is written for a character does not end the text, nor is there a control character. -/
theorem inside_of_mem_escapeChar (hquote : IsQuote quote) (h : d ∈ escapeChar quote c) :
    isControl d = false ∧ (c ≠ quote → d ≠ quote) := by
  have hfixed : ∀ e ∈ ['\\', 'n', 'r', 't', 'x', 'u', 'U'],
      isControl e = false ∧ e ≠ '\'' ∧ e ≠ '"' := by
    simp only [List.forall_mem_cons, List.not_mem_nil, false_imp_iff, implies_true]
    decide
  have hother {e : Char} (he : isControl e = false ∧ e ≠ '\'' ∧ e ≠ '"') :
      isControl e = false ∧ (c ≠ quote → e ≠ quote) :=
    ⟨he.1, fun _ => by rcases hquote with rfl | rfl <;> simp [he]⟩
  have hwritten := escaped_escapeChar quote c
  generalize escapeChar quote c = written at h hwritten
  cases hwritten with
  | marked hc =>
    rcases List.mem_cons.mp h with rfl | h
    · exact hother (hfixed _ (by decide))
    · cases List.mem_singleton.mp h
      refine ⟨?_, id⟩
      rcases hc with rfl | rfl
      · rcases hquote with rfl | rfl <;> rfl
      · rfl
  | letter e he =>
    have hletters : ∀ p ∈ [('\n', 'n'), ('\r', 'r'), ('\t', 't')],
        p.2 ∈ ['\\', 'n', 'r', 't', 'x', 'u', 'U'] := by decide
    rcases List.mem_cons.mp h with rfl | h
    · exact hother (hfixed _ (by decide))
    · cases List.mem_singleton.mp h
      exact hother (hfixed _ (hletters _ he))
  | plain _ _ hprintable =>
    cases List.mem_singleton.mp h
    exact ⟨isControl_of_isPrintable hprintable, id⟩
  | number e width _ _ hwidth =>
    rcases List.mem_cons.mp h with rfl | h
    · exact hother (hfixed _ (by decide))
    rcases List.mem_cons.mp h with rfl | h
    · refine hother (hfixed _ ?_)
      rcases hwidth with ⟨rfl, -⟩ | ⟨rfl, -⟩ | ⟨rfl, -⟩ <;> decide
    · exact hother (visible_of_mem_hex h)

/-! ## Literal strings -/

theorem takeLiteral_plain {cs : List Char} (h : ∀ d ∈ cs, isControl d = false ∧ d ≠ '\'')
    (rest : List Char) : takeLiteral (cs ++ '\'' :: rest) = some (cs, rest) := by
  induction cs with
  | nil => rfl
  | cons c cs ih =>
    obtain ⟨hcontrol, hquote⟩ := h c List.mem_cons_self
    rw [List.cons_append, takeLiteral, if_neg (by simpa using hquote), if_neg (by simp [hcontrol]),
      ih fun d hd => h d (List.mem_cons_of_mem c hd)]
    rfl

theorem takeString_literal {cs : List Char} (h : ∀ d ∈ cs, isControl d = false ∧ d ≠ '\'')
    (hne : cs ≠ []) (rest : List Char) :
    takeString ('\'' :: (cs ++ '\'' :: rest)) = some (String.ofList cs, rest) := by
  have hplain := takeLiteral_plain h rest
  cases cs with
  | nil => exact absurd rfl hne
  | cons c cs =>
    have hc := (h c List.mem_cons_self).2
    have hstep : takeString ('\'' :: (c :: cs ++ '\'' :: rest)) =
        (takeLiteral (c :: cs ++ '\'' :: rest)).map fun p => (String.ofList p.1, p.2) := by
      rw [List.cons_append]
      unfold takeString
      split <;> simp_all
    rw [hstep, hplain]
    rfl

/-- A character is written as itself, or with an escape that it needs. -/
theorem escapeChar_self_or_longer (hc : c ≠ quote) :
    escapeChar quote c = [c] ∧ c ≠ '\\' ∧ isPrintable c = true ∨
      1 < (escapeChar quote c).length ∧ ¬ (c ≠ '\\' ∧ isPrintable c = true) := by
  have hwritten := escaped_escapeChar quote c
  generalize escapeChar quote c = written at hwritten
  cases hwritten with
  | marked h =>
    exact .inr ⟨Nat.lt_succ_self 1, fun hplain => hplain.1 (h.resolve_left hc)⟩
  | letter d h =>
    have hletters : ∀ p ∈ [('\n', 'n'), ('\r', 'r'), ('\t', 't')], isPrintable p.1 = false := by
      decide +kernel
    exact .inr ⟨Nat.lt_succ_self 1, fun hplain => by simp [hletters _ h] at hplain⟩
  | plain _ hbackslash hprintable => exact .inl ⟨rfl, hbackslash, hprintable⟩
  | number d width hhidden =>
    exact .inr ⟨Nat.succ_lt_succ (Nat.succ_pos _), fun hplain => by simp [hhidden] at hplain⟩

theorem shown_ne_nil (quote c : Char) : escapeChar quote c ≠ [] := by
  have hwritten := escaped_escapeChar quote c
  generalize escapeChar quote c = written at hwritten
  cases hwritten <;> exact List.cons_ne_nil _ _

/-- Nothing is changed between quotes if and only if nothing needs an escape. -/
theorem flatMap_escapeChar_iff {cs : List Char} (h : quote ∉ cs) :
    cs.flatMap (escapeChar quote) = cs ↔ ∀ c ∈ cs, c ≠ '\\' ∧ isPrintable c = true := by
  induction cs with
  | nil => simp
  | cons c cs ih =>
    obtain ⟨hc, hcs⟩ := not_or.mp (mt List.mem_cons.mpr h)
    rw [List.flatMap_cons, List.forall_mem_cons]
    rcases escapeChar_self_or_longer (Ne.symm hc) with ⟨hself, hplain⟩ | ⟨hlonger, hescaped⟩
    · rw [hself, List.singleton_append, List.cons.injEq, ih hcs]
      simp [hplain]
    · refine iff_of_false (fun heq => ?_) fun hall => hescaped hall.1
      have hlength := congrArg List.length heq
      have hrest := length_le_flatMap (shown_ne_nil quote) cs
      rw [List.length_append, List.length_cons] at hlength
      omega

/-! ## Basic strings -/

/-- The character is shown as itself, or with an escape that basic strings have. -/
def isReadable (c : Char) : Bool :=
  isPrintable c || ['\n', '\r', '\t'].contains c || decide (0x100 ≤ c.toNat)

theorem takeBasic_none {fuel : Nat} {cs : List Char} (h : takeEscape cs = none) :
    takeBasic (fuel + 1) ('\\' :: cs) = none := by
  rw [takeBasic, if_neg (by decide), if_pos (by decide), h]
  rfl

variable {fuel : Nat}

theorem takeBasic_shown (hc : c ≠ '"') (cs : List Char) :
    takeBasic (fuel + 1) (escapeChar '"' c ++ cs) =
      if isReadable c then prepend c (takeBasic fuel cs) else none := by
  have hwritten := escaped_escapeChar '"' c
  generalize escapeChar '"' c = written at hwritten
  cases hwritten with
  | marked h =>
    cases h.resolve_left hc
    rw [if_pos (by decide +kernel)]
    exact takeBasic_backslash rfl
  | letter e he =>
    have hletters : ∀ p ∈ [('\n', 'n'), ('\r', 'r'), ('\t', 't')],
        isReadable p.1 = true := by decide +kernel
    rw [if_pos (hletters _ he)]
    refine takeBasic_backslash ?_
    simp only [List.mem_cons, Prod.mk.injEq, List.not_mem_nil, or_false] at he
    rcases he with ⟨rfl, rfl⟩ | ⟨rfl, rfl⟩ | ⟨rfl, rfl⟩ <;> rfl
  | plain _ hbackslash hprintable =>
    rw [if_pos (by simp [isReadable, hprintable])]
    exact takeBasic_plain hc hbackslash (isControl_of_isPrintable hprintable) cs
  | number e width hhidden hletter hwidth =>
    rcases hwidth with ⟨rfl, rfl, hbyte⟩ | hwide
    · rw [if_neg]
      · exact takeBasic_none rfl
      · simpa [isReadable, hhidden, hletter] using hbyte
    · have hsize : 0x100 ≤ c.toNat := by
        rcases hwide with ⟨-, -, hsize, -⟩ | ⟨-, -, hsize⟩ <;> exact hsize
      rw [if_pos (by simp [isReadable, hsize])]
      refine takeBasic_backslash (takeEscape_number ?_ ?_ cs)
      · have hvalid : c.toNat.isValidChar := c.valid
        rcases hwide with ⟨-, rfl, -, hlt⟩ | ⟨-, rfl, -⟩
        · exact hlt
        · rcases hvalid with hlt | ⟨-, hlt⟩ <;> exact Nat.lt_trans hlt (by decide)
      · rcases hwide with ⟨rfl, rfl, -⟩ | ⟨rfl, rfl, -⟩
        · exact .inl ⟨rfl, rfl⟩
        · exact .inr ⟨rfl, rfl⟩

/-- A text in double quotes is read as it was, or not at all. -/
theorem takeBasic_quoted {cs : List Char} (h : '"' ∉ cs) (hfuel : cs.length < fuel)
    (rest : List Char) : takeBasic fuel (cs.flatMap (escapeChar '"') ++ '"' :: rest) =
      if cs.all isReadable then some (cs, rest) else none := by
  induction cs generalizing fuel with
  | nil =>
    obtain ⟨fuel, rfl⟩ := Nat.exists_eq_add_one.mpr hfuel
    simp [takeBasic]
  | cons c cs ih =>
    obtain ⟨fuel, rfl⟩ := Nat.exists_eq_add_one.mpr (Nat.zero_lt_of_lt hfuel)
    obtain ⟨hc, hcs⟩ := not_or.mp (mt List.mem_cons.mpr h)
    rw [List.flatMap_cons, List.append_assoc, takeBasic_shown (Ne.symm hc),
      ih hcs (Nat.lt_of_succ_lt_succ hfuel)]
    rw [List.all_cons]
    cases isReadable c with
    | false => rfl
    | true =>
      rw [if_pos rfl, Bool.true_and]
      split <;> rfl

/-! ## Lines -/

def readLineValue (cs : List Char) : Option (Toml × List Char) :=
  readValue cs >>= fun p => (skipLineRest p.2).map (p.1, ·)

theorem skipComment_line {body : List Char} (h : '\n' ∉ body) (rest : List Char) :
    skipComment ('#' :: (body ++ '\n' :: rest)) =
      if body.any isControl then none else some ('\n' :: rest) := by
  have hbody : (body ++ '\n' :: rest).takeWhile (· != '\n') = body := by
    rw [List.takeWhile_append_of_pos fun c hc => by
      simpa using fun heq : c = '\n' => h (heq ▸ hc)]
    simp
  rw [skipComment, hbody, List.drop_left]

/-- The rest of a line has nothing to say, or something wrong, whatever comes on the next line. -/
theorem skipLineRest_cases {cs : List Char} (h : '\n' ∉ cs) :
    (∀ rest, skipLineRest (cs ++ '\n' :: rest) = none) ∨
      ∀ rest, skipLineRest (cs ++ '\n' :: rest) = some rest := by
  have hspace (rest : List Char) : (cs ++ '\n' :: rest).dropWhile isSpace =
      cs.dropWhile isSpace ++ '\n' :: rest := by
    rw [List.dropWhile_append]
    split
    · next hempty =>
      rw [List.isEmpty_iff.mp hempty]
      rfl
    · rfl
  have hstart : '\n' ∉ cs.dropWhile isSpace := fun hmem => h (List.dropWhile_subset _ hmem)
  simp only [skipLineRest, hspace]
  generalize cs.dropWhile isSpace = start at hstart
  cases start with
  | nil => exact .inr fun rest => rfl
  | cons c body =>
    obtain ⟨hc, hbody⟩ := not_or.mp (mt List.mem_cons.mpr hstart)
    by_cases hcomment : c = '#'
    · cases hcomment
      simp only [List.cons_append, skipComment_line hbody]
      split
      · exact .inl fun rest => rfl
      · exact .inr fun rest => rfl
    · refine .inl fun rest => ?_
      have hskip : skipComment (c :: (body ++ '\n' :: rest)) =
          some (c :: (body ++ '\n' :: rest)) := by
        unfold skipComment
        split
        · next heq => exact absurd (List.cons.inj heq).1 hcomment
        · rfl
      rw [List.cons_append, hskip, Option.bind_eq_bind, Option.bind_some]
      split
      · next heq => exact absurd (List.cons.inj heq).1.symm hc
      · next heq => cases heq
      · rfl

/-! ## Quoted texts -/

variable {s : String}

/-- The quoted text is a string that is read as the text itself: nothing needs an escape, or the
quotes are double ones and basic strings have all the escapes. -/
def Recovers (s : String) : Prop :=
  ('\'' ∉ s.toList ∧ ∀ c ∈ s.toList, c ≠ '\\' ∧ isPrintable c = true) ∨
    ('\'' ∈ s.toList ∧ '"' ∉ s.toList ∧ ∀ c ∈ s.toList, isReadable c = true)

instance (s : String) : Decidable (Recovers s) :=
  decidable_of_iff
    (('\'' ∉ s.toList ∧ s.toList.all fun c => c != '\\' && isPrintable c) ∨
      ('\'' ∈ s.toList ∧ '"' ∉ s.toList ∧ s.toList.all isReadable))
    (by simp [Recovers])

def ReadsAs (s : String) (read? : Option String) : Prop :=
  ∀ rest, readLineValue ((quoted s).toList ++ '\n' :: rest) = read?.map fun t => (.text t, rest)

theorem quoted_toList (s : String) (rest : List Char) : (quoted s).toList ++ rest =
    quoteFor s.toList ::
      (s.toList.flatMap (escapeChar (quoteFor s.toList)) ++ quoteFor s.toList :: rest) := by
  simp [quoted]

/-- A quoted text is the string that it looks like, as far as it is one. -/
theorem readLineValue_quoted (s : String) (rest : List Char) :
    readLineValue ((quoted s).toList ++ rest) = takeString ((quoted s).toList ++ rest) >>= fun p =>
      (skipLineRest p.2).map fun after => (.text p.1, after) := by
  have hread : readValue ((quoted s).toList ++ rest) =
      (takeString ((quoted s).toList ++ rest)).map fun p => (.text p.1, p.2) := by
    rw [quoted_toList]
    rcases isQuote_quoteFor s.toList with hquote | hquote
    · rw [hquote]
      rfl
    · rw [hquote]
      rfl
  rw [readLineValue, hread]
  cases takeString ((quoted s).toList ++ rest) <;> rfl

theorem mem_flatMap_escapeChar {cs : List Char} (hquote : IsQuote quote)
    (hd : d ∈ cs.flatMap (escapeChar quote)) :
    isControl d = false ∧ (quote ∉ cs → d ≠ quote) := by
  obtain ⟨c, hc, hd⟩ := List.mem_flatMap.mp hd
  obtain ⟨hcontrol, hinside⟩ := inside_of_mem_escapeChar hquote hd
  exact ⟨hcontrol, fun hcs => hinside fun heq => hcs (heq ▸ hc)⟩

/-- No control character is left between quotes. -/
theorem isControl_of_mem_quoted (hd : d ∈ (quoted s).toList) : isControl d = false := by
  have hquote := isQuote_quoteFor s.toList
  rw [← List.append_nil (quoted s).toList, quoted_toList] at hd
  have hends : isControl (quoteFor s.toList) = false := by
    rcases hquote with hquote | hquote
    · rw [hquote]
      rfl
    · rw [hquote]
      rfl
  rcases List.mem_cons.mp hd with rfl | hd
  · exact hends
  rcases List.mem_append.mp hd with hd | hd
  · exact (mem_flatMap_escapeChar hquote hd).1
  · exact List.mem_singleton.mp hd ▸ hends

theorem flatMap_escapeChar_ne_nil {cs : List Char} (h : cs ≠ []) :
    cs.flatMap (escapeChar quote) ≠ [] := by
  obtain ⟨c, rest, rfl⟩ := List.exists_cons_of_ne_nil h
  rw [List.flatMap_cons]
  exact List.append_ne_nil_of_left_ne_nil (shown_ne_nil quote c) _

theorem ofList_ne_empty {cs : List Char} (h : cs ≠ []) : String.ofList cs ≠ "" := fun heq =>
  h (by simpa using congrArg String.toList heq)

theorem readsAs_literal (hs : s ≠ "") (hsingle : '\'' ∉ s.toList) :
    ReadsAs s (some (String.ofList (s.toList.flatMap (escapeChar '\'')))) := by
  intro rest
  have hquote : quoteFor s.toList = '\'' := by simp [quoteFor, hsingle]
  rw [readLineValue_quoted, quoted_toList, hquote, takeString_literal]
  · rfl
  · intro d hd
    obtain ⟨hcontrol, hinside⟩ := mem_flatMap_escapeChar (.inl rfl) hd
    exact ⟨hcontrol, hinside hsingle⟩
  · exact flatMap_escapeChar_ne_nil (mt String.toList_eq_nil_iff.mp hs)

/-- A literal string ends at the first quote, whether it is marked or not. -/
theorem readsAs_cut {front back : List Char} (hfront : '\'' ∉ front)
    (hs : s.toList = front ++ '\'' :: back) (hdouble : '"' ∈ s.toList) :
    ∃ read?, ReadsAs s read? ∧
      ∀ t, read? = some t → t = String.ofList (front.flatMap (escapeChar '\'') ++ ['\\']) := by
  have hquote : quoteFor s.toList = '\'' := by simp [quoteFor, hdouble]
  have hplain : ∀ d ∈ front.flatMap (escapeChar '\'') ++ ['\\'],
      isControl d = false ∧ d ≠ '\'' := by
    intro d hd
    rcases List.mem_append.mp hd with hd | hd
    · obtain ⟨hcontrol, hinside⟩ := mem_flatMap_escapeChar (.inl rfl) hd
      exact ⟨hcontrol, hinside hfront⟩
    · cases List.mem_singleton.mp hd
      exact ⟨rfl, by decide⟩
  have hline : '\n' ∉ back.flatMap (escapeChar '\'') ++ ['\''] := by
    intro hmem
    rcases List.mem_append.mp hmem with hmem | hmem
    · have hcontrol := (mem_flatMap_escapeChar (.inl rfl) hmem).1
      cases hcontrol
    · cases List.mem_singleton.mp hmem
  have hread (rest : List Char) : takeString ((quoted s).toList ++ '\n' :: rest) =
      some (String.ofList (front.flatMap (escapeChar '\'') ++ ['\\']),
        back.flatMap (escapeChar '\'') ++ ['\''] ++ '\n' :: rest) := by
    rw [← takeString_literal hplain (by simp), quoted_toList, hquote, hs]
    simp [escapeChar, shortEscape?]
  rcases skipLineRest_cases hline with hnone | hsome
  · refine ⟨none, fun rest => ?_, fun t ht => by cases ht⟩
    rw [readLineValue_quoted, hread]
    exact congrArg (Option.map _) (hnone rest)
  · refine ⟨some _, fun rest => ?_, fun t ht => (Option.some.inj ht).symm⟩
    rw [readLineValue_quoted, hread]
    exact congrArg (Option.map _) (hsome rest)

theorem readsAs_basic (hsingle : '\'' ∈ s.toList) (hdouble : '"' ∉ s.toList) :
    ReadsAs s (if s.toList.all isReadable then some s else none) := by
  intro rest
  have hquote : quoteFor s.toList = '"' := by simp [quoteFor, hsingle, hdouble]
  have hne : s.toList.flatMap (escapeChar '"') ≠ [] :=
    flatMap_escapeChar_ne_nil (List.ne_nil_of_mem hsingle)
  obtain ⟨d, ds, hwritten⟩ := List.exists_cons_of_ne_nil hne
  have hd : d ≠ '"' := by
    have hmem : d ∈ s.toList.flatMap (escapeChar '"') := hwritten ▸ List.mem_cons_self
    exact (mem_flatMap_escapeChar (.inr rfl) hmem).2 hdouble
  have hlength := length_le_flatMap (shown_ne_nil '"') s.toList
  rw [readLineValue_quoted, quoted_toList, hquote, hwritten, List.cons_append,
    takeString_basic hd, ← List.cons_append, ← hwritten, takeBasic_quoted hdouble]
  · split
    · rw [Option.map_some, String.ofList_toList]
      rfl
    · rfl
  · rw [List.length_append]
    omega

/-- What is read of a quoted text is the text itself if it is one of those that are recovered, and
else another text, or nothing. -/
theorem exists_readsAs (hs : s ≠ "") : ∃ read?, ReadsAs s read? ∧ (read? = some s ↔ Recovers s) ∧
    ∀ t, read? = some t → t ≠ "" := by
  have hne : s.toList ≠ [] := mt String.toList_eq_nil_iff.mp hs
  by_cases hsingle : '\'' ∈ s.toList
  · by_cases hdouble : '"' ∈ s.toList
    · obtain ⟨front, back, hsplit, hfront⟩ := List.eq_append_cons_of_mem hsingle
      obtain ⟨read?, hreads, hread⟩ := readsAs_cut hfront hsplit hdouble
      refine ⟨read?, hreads, iff_of_false (fun hsome => ?_) ?_, fun t ht => ?_⟩
      · -- The text has a quote, and what was read does not.
        rw [hread s hsome, String.toList_ofList] at hsingle
        rcases List.mem_append.mp hsingle with hmem | hmem
        · exact (mem_flatMap_escapeChar (.inl rfl) hmem).2 hfront rfl
        · cases List.mem_singleton.mp hmem
      · rintro (hrecovers | hrecovers)
        · exact hrecovers.1 hsingle
        · exact hrecovers.2.1 hdouble
      · rw [hread t ht]
        exact ofList_ne_empty (by simp)
    · refine ⟨_, readsAs_basic hsingle hdouble, ?_, fun t ht => ?_⟩
      · split
        · next hall =>
          exact iff_of_true rfl (.inr ⟨hsingle, hdouble, List.all_eq_true.mp hall⟩)
        · next hall =>
          refine iff_of_false nofun ?_
          rintro (hrecovers | hrecovers)
          · exact hrecovers.1 hsingle
          · exact hall (List.all_eq_true.mpr hrecovers.2.2)
      · split at ht
        · cases ht
          exact hs
        · cases ht
  · refine ⟨_, readsAs_literal hs hsingle, ?_, fun t ht => ?_⟩
    · have hself : String.ofList (s.toList.flatMap (escapeChar '\'')) = s ↔
          s.toList.flatMap (escapeChar '\'') = s.toList :=
        ⟨fun h => by simpa using congrArg String.toList h,
          fun h => by rw [h, String.ofList_toList]⟩
      rw [Option.some.injEq, hself, flatMap_escapeChar_iff hsingle]
      exact ⟨fun h => .inl ⟨hsingle, h⟩, fun h => h.elim And.right fun h => absurd h.1 hsingle⟩
    · cases ht
      exact ofList_ne_empty (flatMap_escapeChar_ne_nil hne)

end Text

end VirtualUsers
