import VirtualUsers.Proofs.EscapedTexts
/-!
# Texts of strings

What is read of a string does not depend on what comes after it: the characters of a string are read
as that string wherever they stand, as long as no quote follows.
-/

namespace VirtualUsers.Toml

open Text (dropWhile_of_head head_dropWhile)

variable {cs rest : List Char}

theorem readPart_append (part rest : List Char) : readPart (part ++ rest) rest = part := by
  rw [readPart, List.length_append, Nat.add_sub_cancel, List.take_left]

/-- What the reader reads is read the same whatever comes after it. -/
def Exact {α : Type} (read : Reader α) : Prop :=
  ∀ {cs a rest}, read cs = some (a, rest) →
    ∃ m, cs = m ++ rest ∧ ∀ rest', read (m ++ rest') = some (a, rest')

theorem takeHex_exact (n digits : Nat) : Exact (takeHex n digits) := by
  intro cs value rest h
  induction digits generalizing n cs with
  | zero =>
    cases h
    exact ⟨[], rfl, fun _ => rfl⟩
  | succ digits ih =>
    cases cs with
    | nil => cases h
    | cons c cs =>
      obtain ⟨d, hd, hrest⟩ := Option.bind_eq_some_iff.mp h
      obtain ⟨m, rfl, hm⟩ := ih _ hrest
      refine ⟨c :: m, rfl, fun rest' => ?_⟩
      rw [List.cons_append, takeHex, hd]
      exact hm rest'

theorem takeEscape_exact : Exact takeEscape := by
  have hnumber {digits : Nat} {c : Char} {cs rest : List Char}
      (h : takeHex 0 digits cs >>= (fun p => scalar? p.1 >>= fun d => some (d, p.2)) =
        some (c, rest)) : ∃ m, cs = m ++ rest ∧ ∀ rest', (takeHex 0 digits (m ++ rest') >>= fun p =>
          scalar? p.1 >>= fun d => some (d, p.2)) = some (c, rest') := by
    obtain ⟨⟨n, cs'⟩, hhex, h⟩ := Option.bind_eq_some_iff.mp h
    obtain ⟨d, hd, h⟩ := Option.bind_eq_some_iff.mp h
    cases h
    obtain ⟨m, rfl, hm⟩ := takeHex_exact 0 digits hhex
    refine ⟨m, rfl, fun rest' => ?_⟩
    rw [hm rest']
    exact Option.bind_eq_some_iff.mpr ⟨_, rfl, Option.bind_eq_some_iff.mpr ⟨c, hd, rfl⟩⟩
  intro cs c rest h
  unfold takeEscape at h
  split at h
  case h_8 | h_9 =>
    obtain ⟨m, rfl, hm⟩ := hnumber h
    exact ⟨_ :: m, rfl, hm⟩
  case h_10 => cases h
  all_goals
    cases h
    exact ⟨[_], rfl, fun _ => rfl⟩

theorem takeBasic_exact {fuel : Nat} {s : List Char} (h : takeBasic fuel cs = some (s, rest)) :
    ∃ m, m ≠ [] ∧ cs = m ++ rest ∧ ∀ rest' fuel', m.length ≤ fuel' →
      takeBasic fuel' (m ++ rest') = some (s, rest') := by
  induction fuel generalizing cs s with
  | zero => cases h
  | succ fuel ih =>
    cases cs with
    | nil => cases h
    | cons c cs =>
      rw [takeBasic] at h
      split at h
      · next hquote =>
        cases h
        refine ⟨[c], List.cons_ne_nil c [], rfl, fun rest' fuel' hfuel => ?_⟩
        obtain ⟨fuel', rfl⟩ := Nat.exists_eq_add_one.mpr hfuel
        exact if_pos hquote
      · split at h
        · next hbackslash =>
          obtain ⟨⟨d, cs'⟩, hescape, h⟩ := Option.bind_eq_some_iff.mp h
          obtain ⟨⟨ds, cs''⟩, hothers, h⟩ := Option.bind_eq_some_iff.mp h
          cases h
          obtain ⟨m, rfl, hm⟩ := takeEscape_exact hescape
          obtain ⟨m', hne, rfl, hm'⟩ := ih hothers
          cases beq_iff_eq.mp hbackslash
          refine ⟨'\\' :: (m ++ m'), by simp, by simp, fun rest' fuel' hfuel => ?_⟩
          obtain ⟨fuel', rfl⟩ := Nat.exists_eq_add_one.mpr (Nat.zero_lt_of_lt hfuel)
          rw [List.cons_append, List.append_assoc, takeBasic_backslash (hm _), hm']
          · rfl
          · simp only [List.length_cons, List.length_append] at hfuel
            omega
        · next hquote hbackslash =>
          split at h
          · cases h
          · next hcontrol =>
            obtain ⟨⟨ds, cs'⟩, hothers, h⟩ := Option.bind_eq_some_iff.mp h
            cases h
            obtain ⟨m, hne, rfl, hm⟩ := ih hothers
            refine ⟨c :: m, by simp, rfl, fun rest' fuel' hfuel => ?_⟩
            obtain ⟨fuel', rfl⟩ := Nat.exists_eq_add_one.mpr (Nat.zero_lt_of_lt hfuel)
            rw [List.cons_append, takeBasic_plain (by simpa using hquote)
              (by simpa using hbackslash) (by simpa using hcontrol),
              hm _ _ (Nat.le_of_succ_le_succ hfuel)]
            rfl

theorem takeLiteral_exact : Exact takeLiteral := by
  intro cs s rest h
  induction cs generalizing s with
  | nil => cases h
  | cons c cs ih =>
    rw [takeLiteral] at h
    split at h
    · next hquote =>
      cases h
      exact ⟨[c], rfl, fun _ => if_pos hquote⟩
    · next hquote =>
      split at h
      · cases h
      · next hcontrol =>
        obtain ⟨⟨ds, cs'⟩, hothers, h⟩ := Option.bind_eq_some_iff.mp h
        cases h
        obtain ⟨m, rfl, hm⟩ := ih hothers
        refine ⟨c :: m, rfl, fun rest' => ?_⟩
        rw [List.cons_append, takeLiteral, if_neg hquote, if_neg hcontrol, hm]
        rfl

/-- What is dropped is dropped again, up to where it ended. -/
theorem dropWhile_exact {p : Char → Bool} (h : cs.dropWhile p = rest) :
    ∃ m, cs = m ++ rest ∧ (∀ c ∈ m, p c) ∧
      ∀ rest', (m ++ rest').dropWhile p = rest'.dropWhile p := by
  have hall : ∀ c ∈ cs.takeWhile p, p c := fun c hc => List.mem_takeWhile_imp hc
  exact ⟨cs.takeWhile p, h ▸ (List.takeWhile_append_dropWhile).symm, hall, fun _ =>
    List.dropWhile_append_of_pos hall⟩

/-- Two quotes at the front are within what was read, if none comes after it. -/
theorem quotes_front {quote : Char} {m rest' tail : List Char} (hm : m ≠ [])
    (hrest : rest'.head? ≠ some quote) (h : m ++ rest' = quote :: quote :: tail) :
    ∃ tail', m ++ rest = quote :: quote :: tail' := by
  obtain ⟨d, m, rfl⟩ := List.exists_cons_of_ne_nil hm
  obtain ⟨rfl, h⟩ := List.cons.inj h
  cases m with
  | nil => simp_all
  | cons e m =>
    obtain ⟨rfl, -⟩ := List.cons.inj h
    exact ⟨m ++ rest, rfl⟩

theorem closing_exact {quote : Char} {s : List Char} (h : closing quote cs = (s, rest)) :
    ∃ m, cs = m ++ rest ∧ ∀ rest', rest'.head? ≠ some quote →
      closing quote (m ++ rest') = (s, rest') := by
  have hnone {rest' : List Char} (h : rest'.head? ≠ some quote) :
      closing quote rest' = ([], rest') := by
    unfold closing
    split <;> simp_all
  have hone {rest' : List Char} (h : rest'.head? ≠ some quote) :
      closing quote (quote :: rest') = ([quote], rest') := by
    cases rest' <;> simp_all [closing]
  unfold closing at h
  split at h
  · split at h
    · next hc =>
      cases beq_iff_eq.mp hc
      split at h
      · next hd =>
        cases beq_iff_eq.mp hd
        cases h
        exact ⟨[quote, quote], rfl, fun rest' _ => by simp [closing]⟩
      · next hd =>
        cases h
        exact ⟨[quote], rfl, fun rest' hrest => hone hrest⟩
    · next hc =>
      cases h
      exact ⟨[], rfl, fun rest' hrest => hnone hrest⟩
  · split at h
    · next hc =>
      cases beq_iff_eq.mp hc
      cases h
      exact ⟨[quote], rfl, fun rest' hrest => hone hrest⟩
    · next hc =>
      cases h
      exact ⟨[], rfl, fun rest' hrest => hnone hrest⟩
  · cases h
    exact ⟨[], rfl, fun rest' hrest => hnone hrest⟩

theorem skipLineEnd_exact {c : Char} (h : skipLineEnd cs = some (c :: rest)) :
    ∃ m, m ≠ [] ∧ cs = m ++ c :: rest ∧
      ∀ rest', skipLineEnd (m ++ c :: rest') = some (c :: rest') := by
  unfold skipLineEnd at h
  split at h
  · next tail hline =>
    obtain ⟨m, rfl, -, hm⟩ := dropWhile_exact hline
    obtain ⟨m', rfl, -, hm'⟩ := dropWhile_exact (Option.some.inj h)
    have hc := head_dropWhile (Option.some.inj h)
    refine ⟨m ++ '\n' :: m', by simp, by simp, fun rest' => ?_⟩
    have hspace : ('\n' :: (m' ++ c :: rest')).dropWhile isSpace = '\n' :: (m' ++ c :: rest') := rfl
    rw [List.append_assoc, List.cons_append, skipLineEnd, hm, hspace]
    simp only [hm', List.dropWhile_cons, hc]
    rfl
  · cases h
  · cases h

variable {fuel : Nat} {c d : Char}

theorem takeBasicLines_lineEnd (hc : isSpaceOrLine c = true)
    (h : skipLineEnd (c :: cs) = some rest) :
    takeBasicLines (fuel + 1) ('\\' :: c :: cs) = takeBasicLines fuel rest := by
  rw [takeBasicLines, if_pos hc, h]
  rfl

theorem takeBasicLines_backslash (hc : isSpaceOrLine c = false)
    (h : takeEscape (c :: cs) = some (d, rest)) :
    takeBasicLines (fuel + 1) ('\\' :: c :: cs) = prepend d (takeBasicLines fuel rest) := by
  rw [takeBasicLines, hc, h]
  change (takeBasicLines fuel rest >>= fun p => some (d :: p.1, p.2)) = _
  cases takeBasicLines fuel rest <;> rfl

theorem takeBasicLines_plain (hquotes : ∀ tail, c :: cs ≠ '"' :: '"' :: '"' :: tail)
    (hbackslash : c ≠ '\\') : takeBasicLines (fuel + 1) (c :: cs) =
      if isControl c && c != '\n' then none else prepend c (takeBasicLines fuel cs) := by
  have hstep : takeBasicLines (fuel + 1) (c :: cs) =
      if c == '\\' || isControl c && c != '\n' then none
      else takeBasicLines fuel cs >>= fun p => some (c :: p.1, p.2) := by
    rw [takeBasicLines]
    · rfl
    · rintro tail rfl rfl
      exact hquotes tail rfl
    · exact fun _ _ hsame _ => hbackslash hsame
  rw [hstep, beq_eq_false_iff_ne.mpr hbackslash, Bool.false_or]
  cases takeBasicLines fuel cs <;> rfl

/-- The characters of a basic string over several lines, with the quotes that close it. -/
structure BasicLines (m s : List Char) : Prop where
  ne_nil : m ≠ []
  read : ∀ rest fuel, m.length ≤ fuel → rest.head? ≠ some '"' →
    takeBasicLines fuel (m ++ rest) = some (s, rest)

section BasicLines

variable {m s : List Char}

theorem BasicLines.lineEnd {skipped : List Char} (h : BasicLines m s) (hc : isSpaceOrLine c = true)
    (hskip : ∀ rest, skipLineEnd (c :: (skipped ++ (m ++ rest))) = some (m ++ rest)) :
    BasicLines ('\\' :: c :: skipped ++ m) s := by
  refine ⟨List.cons_ne_nil _ _, fun rest fuel hfuel hrest => ?_⟩
  obtain ⟨fuel, rfl⟩ := Nat.exists_eq_add_one.mpr (Nat.zero_lt_of_lt hfuel)
  simp only [List.length_append, List.length_cons] at hfuel
  rw [List.append_assoc, List.cons_append, List.cons_append, takeBasicLines_lineEnd hc (hskip rest)]
  exact h.read rest fuel (by omega) hrest

theorem BasicLines.backslash {escape : List Char} (h : BasicLines m s)
    (hc : isSpaceOrLine c = false)
    (hescape : ∀ rest, takeEscape (c :: (escape ++ rest)) = some (d, rest)) :
    BasicLines ('\\' :: c :: escape ++ m) (d :: s) := by
  refine ⟨List.cons_ne_nil _ _, fun rest fuel hfuel hrest => ?_⟩
  obtain ⟨fuel, rfl⟩ := Nat.exists_eq_add_one.mpr (Nat.zero_lt_of_lt hfuel)
  simp only [List.length_append, List.length_cons] at hfuel
  rw [List.append_assoc, List.cons_append, List.cons_append,
    takeBasicLines_backslash hc (hescape (m ++ rest)), h.read rest fuel (by omega) hrest]
  rfl

theorem BasicLines.plain (h : BasicLines m s)
    (hquotes : ∀ tail, c :: (m ++ cs) ≠ '"' :: '"' :: '"' :: tail) (hbackslash : c ≠ '\\')
    (hplain : ¬(isControl c && c != '\n')) : BasicLines (c :: m) (c :: s) := by
  refine ⟨List.cons_ne_nil c m, fun rest fuel hfuel hrest => ?_⟩
  obtain ⟨fuel, rfl⟩ := Nat.exists_eq_add_one.mpr (Nat.zero_lt_of_lt hfuel)
  rw [List.cons_append, takeBasicLines_plain _ hbackslash, if_neg hplain,
    h.read rest fuel (Nat.le_of_succ_le_succ hfuel) hrest]
  · rfl
  · intro tail hsame
    obtain ⟨hc, hothers⟩ := List.cons.inj hsame
    obtain ⟨tail', hfront⟩ := quotes_front h.ne_nil hrest hothers
    exact hquotes tail' (by rw [hfront, hc])

end BasicLines

theorem takeBasicLines_exact {s : List Char} (h : takeBasicLines fuel cs = some (s, rest)) :
    ∃ m, cs = m ++ rest ∧ BasicLines m s := by
  induction fuel generalizing cs s with
  | zero => cases h
  | succ fuel ih =>
    by_cases hquotes : ∃ tail, cs = '"' :: '"' :: '"' :: tail
    · obtain ⟨tail, rfl⟩ := hquotes
      obtain ⟨m, rfl, hm⟩ := closing_exact (Option.some.inj h)
      refine ⟨'"' :: '"' :: '"' :: m, rfl, List.cons_ne_nil _ _, fun rest' fuel' hfuel hrest => ?_⟩
      obtain ⟨fuel', rfl⟩ := Nat.exists_eq_add_one.mpr (Nat.zero_lt_of_lt hfuel)
      exact congrArg some (hm rest' hrest)
    cases cs with
    | nil => cases h
    | cons c tail =>
      by_cases hbackslash : c = '\\'
      · subst hbackslash
        cases tail with
        | nil => cases h
        | cons c tail =>
          cases hspace : isSpaceOrLine c with
          | true =>
            rw [takeBasicLines, if_pos hspace] at h
            obtain ⟨next, hend, h⟩ := Option.bind_eq_some_iff.mp h
            obtain ⟨m, rfl, hm⟩ := ih h
            obtain ⟨d, m, rfl⟩ := List.exists_cons_of_ne_nil hm.ne_nil
            obtain ⟨skipped, hne, hcs, hskip⟩ := skipLineEnd_exact hend
            obtain ⟨c', skipped, rfl⟩ := List.exists_cons_of_ne_nil hne
            obtain ⟨rfl, rfl⟩ := List.cons.inj hcs
            exact ⟨_, by simp, hm.lineEnd hspace fun rest' => hskip (m ++ rest')⟩
          | false =>
            rw [takeBasicLines, hspace] at h
            obtain ⟨⟨d, next⟩, hescape, h⟩ := Option.bind_eq_some_iff.mp h
            obtain ⟨⟨ds, next'⟩, hothers, h⟩ := Option.bind_eq_some_iff.mp h
            cases h
            obtain ⟨escape, hcs, hread⟩ := takeEscape_exact hescape
            obtain ⟨m, rfl, hm⟩ := ih hothers
            cases escape with
            | nil => cases hread []
            | cons c' escape =>
              obtain ⟨rfl, rfl⟩ := List.cons.inj hcs
              exact ⟨_, by simp, hm.backslash hspace hread⟩
      · have hfront (tail' : List Char) (hsame : c :: tail = '"' :: '"' :: '"' :: tail') : False :=
          hquotes ⟨tail', hsame⟩
        rw [takeBasicLines_plain hfront hbackslash] at h
        split at h
        · cases h
        · next hplain =>
          obtain ⟨⟨ds, next⟩, hothers, h⟩ := Option.map_eq_some_iff.mp h
          cases h
          obtain ⟨m, rfl, hm⟩ := ih hothers
          exact ⟨c :: m, rfl, hm.plain hfront hbackslash hplain⟩

theorem takeLiteralLines_plain (hquotes : ∀ tail, c :: cs ≠ '\'' :: '\'' :: '\'' :: tail) :
    takeLiteralLines (c :: cs) =
      if isControl c && c != '\n' then none else prepend c (takeLiteralLines cs) := by
  rw [takeLiteralLines]
  · cases takeLiteralLines cs <;> rfl
  · rintro tail rfl rfl
    exact hquotes tail rfl

theorem takeLiteralLines_exact {s : List Char} (h : takeLiteralLines cs = some (s, rest)) :
    ∃ m, m ≠ [] ∧ cs = m ++ rest ∧ ∀ rest', rest'.head? ≠ some '\'' →
      takeLiteralLines (m ++ rest') = some (s, rest') := by
  induction cs generalizing s with
  | nil => cases h
  | cons c tail ih =>
    by_cases hquotes : ∃ tail', c :: tail = '\'' :: '\'' :: '\'' :: tail'
    · obtain ⟨tail', hcs⟩ := hquotes
      rw [hcs] at h ⊢
      obtain ⟨m, rfl, hm⟩ := closing_exact (Option.some.inj h)
      exact ⟨'\'' :: '\'' :: '\'' :: m, List.cons_ne_nil _ _, rfl, fun rest' hrest =>
        congrArg some (hm rest' hrest)⟩
    rw [takeLiteralLines_plain fun tail' hsame => hquotes ⟨tail', hsame⟩] at h
    split at h
    · cases h
    · next hplain =>
      obtain ⟨⟨ds, next⟩, hothers, h⟩ := Option.map_eq_some_iff.mp h
      cases h
      obtain ⟨m, hne, rfl, hm⟩ := ih hothers
      refine ⟨c :: m, List.cons_ne_nil c m, rfl, fun rest' hrest => ?_⟩
      rw [List.cons_append, takeLiteralLines_plain, if_neg hplain, hm rest' hrest]
      · rfl
      · intro tail' hsame
        obtain ⟨hc, hothers⟩ := List.cons.inj hsame
        obtain ⟨tail, hfront⟩ := quotes_front hne hrest hothers
        exact hquotes ⟨tail, by rw [hfront, hc]⟩

/-! ## Strings -/

theorem takeString_one (h : ∀ tail, cs ≠ '"' :: '"' :: tail) : takeString ('"' :: cs) =
    (takeBasic (cs.length + 1) cs).map fun p => (String.ofList p.1, p.2) := by
  unfold takeString
  split <;> simp_all

theorem takeString_literal (h : ∀ tail, cs ≠ '\'' :: '\'' :: tail) : takeString ('\'' :: cs) =
    (takeLiteral cs).map fun p => (String.ofList p.1, p.2) := by
  unfold takeString
  split <;> simp_all

/-- The line end after the opening quotes is skipped again. -/
theorem skipFirstLine_exact {m : List Char} (hm : m ≠ []) (h : skipFirstLine cs = m ++ rest) :
    ∃ m', m.length ≤ m'.length ∧ cs = m' ++ rest ∧
      ∀ rest', skipFirstLine (m' ++ rest') = m ++ rest' := by
  obtain ⟨c, m, rfl⟩ := List.exists_cons_of_ne_nil hm
  unfold skipFirstLine at h
  split at h
  · exact ⟨'\n' :: c :: m, by simp, congrArg _ h, fun _ => rfl⟩
  · next hline =>
    refine ⟨c :: m, Nat.le_refl _, h, fun rest' => ?_⟩
    unfold skipFirstLine
    split
    · next hc =>
      obtain ⟨rfl, -⟩ := List.cons.inj hc
      exact absurd h (hline _)
    · rfl

theorem takeString_exact {s : String} (h : takeString cs = some (s, rest)) :
    ∃ m, m ≠ [] ∧ cs = m ++ rest ∧ ∀ rest', rest'.head? ≠ some '"' → rest'.head? ≠ some '\'' →
      takeString (m ++ rest') = some (s, rest') := by
  unfold takeString at h
  split at h
  · next tail =>
    obtain ⟨⟨ds, next⟩, hread, h⟩ := Option.map_eq_some_iff.mp h
    cases h
    obtain ⟨m, hcs, hm⟩ := takeBasicLines_exact hread
    obtain ⟨m', hlength, rfl, hskip⟩ := skipFirstLine_exact hm.ne_nil hcs
    refine ⟨'"' :: '"' :: '"' :: m', List.cons_ne_nil _ _, rfl, fun rest' hrest _ => ?_⟩
    have hagain := hm.read rest' ((m' ++ rest').length + 1) (by simp; omega) hrest
    rw [← hskip] at hagain
    exact congrArg (Option.map _) hagain
  · next tail =>
    obtain ⟨⟨ds, next⟩, hread, h⟩ := Option.map_eq_some_iff.mp h
    cases h
    obtain ⟨m, hne, hcs, hm⟩ := takeLiteralLines_exact hread
    obtain ⟨m', -, rfl, hskip⟩ := skipFirstLine_exact hne hcs
    refine ⟨'\'' :: '\'' :: '\'' :: m', List.cons_ne_nil _ _, rfl, fun rest' _ hrest => ?_⟩
    have hagain := hm rest' hrest
    rw [← hskip] at hagain
    exact congrArg (Option.map _) hagain
  · next tail hquotes =>
    obtain ⟨⟨ds, next⟩, hread, h⟩ := Option.map_eq_some_iff.mp h
    cases h
    obtain ⟨m, hne, rfl, hm⟩ := takeBasic_exact hread
    refine ⟨'"' :: m, List.cons_ne_nil _ _, rfl, fun rest' hrest _ => ?_⟩
    rw [List.cons_append, takeString_one, hm _ _ (by simp; omega)]
    · rfl
    · intro tail' hsame
      obtain ⟨tail, hfront⟩ := quotes_front hne hrest hsame
      exact hquotes tail hfront
  · next tail hquotes =>
    obtain ⟨⟨ds, next⟩, hread, h⟩ := Option.map_eq_some_iff.mp h
    cases h
    obtain ⟨m, rfl, hm⟩ := takeLiteral_exact hread
    have hne : m ≠ [] := by
      rintro rfl
      cases hm []
    refine ⟨'\'' :: m, List.cons_ne_nil _ _, rfl, fun rest' _ hrest => ?_⟩
    rw [List.cons_append, takeString_literal, hm]
    · rfl
    · intro tail' hsame
      obtain ⟨tail, hfront⟩ := quotes_front hne hrest hsame
      exact hquotes tail hfront
  · cases h

end VirtualUsers.Toml
