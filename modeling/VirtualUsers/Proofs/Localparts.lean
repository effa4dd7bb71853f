import VirtualUsers.Bridge.Service
/-!
# Normal forms of localparts

The normal form of a localpart is its own normal form. Lower case stays as it is when it is lowered
again, and no letter becomes white space, so there is nothing left to be cut off.
-/

namespace VirtualUsers

namespace Text

variable {run other : Nat × Nat × Nat × Int} {c : Char} {n : Nat}

/-! ## Letters -/

def InRun (run : Nat × Nat × Nat × Int) (n : Nat) : Prop :=
  run.1 ≤ n ∧ n ≤ run.2.1 ∧ (n - run.1) % run.2.2.1 = 0

/-- Code points from the first to the last one lie outside the run, or between its letters: these
are every second code point, and so are the given ones, if there are several. -/
def avoids (first last : Nat) (everySecond : Bool) (run : Nat × Nat × Nat × Int) : Bool :=
  last.blt run.1 || run.2.1.blt first ||
    (run.2.2.1 == 2 && everySecond && (first + run.1) % 2 == 1)

theorem runs_apart : (lowerRuns.all fun run => lowerRuns.all
    (avoids (run.1 + run.2.2.2).toNat (run.2.1 + run.2.2.2).toNat
      (run.2.2.1 == 2 || run.1 == run.2.1))) = true := by
  decide +kernel

/-- What a run leads to are code points of characters other than the dotted capital I. -/
theorem runs_valid : ∀ run ∈ lowerRuns, 0 ≤ run.1 + run.2.2.2 ∧
    (run.2.1 + run.2.2.2 < 0xd800 ∨ 0xdfff < run.1 + run.2.2.2 ∧ run.2.1 + run.2.2.2 < 0x110000) ∧
    (run.2.1 + run.2.2.2 < 0x130 ∨ 0x130 < run.1 + run.2.2.2) := by
  decide +kernel

/-- No run leads to white space. -/
theorem runs_visible : ∀ run ∈ lowerRuns, ∀ blank ∈ blankRanges,
    run.2.1 + run.2.2.2 < blank.1 ∨ blank.2 < run.1 + run.2.2.2 := by
  decide +kernel

theorem runs_strides : ∀ run ∈ lowerRuns, run.2.2.1 = 1 ∨ run.2.2.1 = 2 := by
  decide +kernel

theorem toNat_ofNat (h : n < 0xd800 ∨ 0xdfff < n ∧ n < 0x110000) : (Char.ofNat n).toNat = n := by
  have hvalid : n.isValidChar := h
  rw [Char.ofNat, dif_pos hvalid]
  rfl

/-- What a letter of a run becomes is a letter of no run. -/
theorem not_inRun_of_inRun (hrun : run ∈ lowerRuns) (h : InRun run n) (hother : other ∈ lowerRuns) :
    ¬ InRun other (n + run.2.2.2).toNat := by
  have havoids := List.all_eq_true.mp (List.all_eq_true.mp runs_apart run hrun) other hother
  have hvalid := (runs_valid run hrun).1
  have hstride := runs_strides run hrun
  obtain ⟨hfirst, hlast, hstep⟩ := h
  rintro ⟨hfirst', hlast', hstep'⟩
  simp only [avoids, Bool.or_eq_true, Bool.and_eq_true, beq_iff_eq, Nat.blt_eq] at havoids
  rcases havoids with (hlt | hlt) | ⟨⟨hsecond, heven⟩, hodd⟩
  · omega
  · omega
  · rw [hsecond] at hstep'
    rcases heven with heven | heven
    · rw [heven] at hstep
      omega
    · omega

/-- A character becomes the letter that its run leads to, or it is in no run and stays. -/
theorem lowerChar_cases (c : Char) :
    (∃ run ∈ lowerRuns, InRun run c.toNat ∧ lowerChar c = Char.ofNat (c.toNat + run.2.2.2).toNat) ∨
      lowerChar c = c := by
  unfold lowerChar
  split
  · next first last stride distance hfind =>
    have hin := List.find?_some hfind
    simp only [Bool.and_eq_true, decide_eq_true_eq, beq_iff_eq] at hin
    exact .inl ⟨_, List.mem_of_find?_eq_some hfind, ⟨hin.1.1, hin.1.2, hin.2⟩, rfl⟩
  · exact .inr rfl

theorem lowerChar_of_not_inRun (h : ∀ run ∈ lowerRuns, ¬ InRun run c.toNat) : lowerChar c = c := by
  rcases lowerChar_cases c with ⟨run, hrun, hin, -⟩ | heq
  · exact absurd hin (h run hrun)
  · exact heq

theorem toNat_image (hrun : run ∈ lowerRuns) (h : InRun run n) :
    (Char.ofNat (n + run.2.2.2).toNat).toNat = (n + run.2.2.2).toNat := by
  obtain ⟨hzero, hvalid, -⟩ := runs_valid run hrun
  obtain ⟨hfirst, hlast, -⟩ := h
  exact toNat_ofNat (by omega)

/-- The character is as it was when it is lowered once more. -/
structure IsLower (c : Char) : Prop where
  lowerChar : lowerChar c = c
  sigma : c ≠ 'Σ'
  dotted : c ≠ 'İ'

theorem isLower_lowerChar (hsigma : c ≠ 'Σ') (hdotted : c ≠ 'İ') : IsLower (lowerChar c) := by
  rcases lowerChar_cases c with ⟨run, hrun, hin, heq⟩ | heq
  · have himage := toNat_image hrun hin
    have hnone : ∀ other ∈ lowerRuns, ¬ InRun other (lowerChar c).toNat := fun other hother => by
      rw [heq, himage]
      exact not_inRun_of_inRun hrun hin hother
    refine ⟨lowerChar_of_not_inRun hnone, fun hc => ?_, fun hc => ?_⟩
    · have hout := lowerChar_of_not_inRun hnone
      rw [hc] at hout
      revert hout
      decide +kernel
    · have hother := (runs_valid run hrun).2.2
      obtain ⟨hfirst, hlast, -⟩ := hin
      rw [heq] at hc
      have hnat := congrArg Char.toNat hc
      rw [himage] at hnat
      change _ = 0x130 at hnat
      omega
  · exact ⟨by rw [heq, heq], by rwa [heq], by rwa [heq]⟩

/-- A letter becomes no white space. -/
theorem isBlank_of_lowerChar (h : isBlank (lowerChar c) = true) : isBlank c = true := by
  rcases lowerChar_cases c with ⟨run, hrun, hin, heq⟩ | heq
  · rw [heq, isBlank, inRanges, List.any_eq_true] at h
    obtain ⟨blank, hblank, hmem⟩ := h
    have hvisible := runs_visible run hrun blank hblank
    have hzero := (runs_valid run hrun).1
    simp only [toNat_image hrun hin, Bool.and_eq_true, decide_eq_true_eq] at hmem
    obtain ⟨hfirst, hlast, -⟩ := hin
    omega
  · rwa [heq] at h

/-! ## Texts in lower case -/

/-- One character in lower case. It depends on those around only in the form of a sigma. -/
theorem lowerFrom_cons (before : List Char) (c : Char) (after : List Char) :
    ∃ here, lowerFrom before (c :: after) = here ++ lowerFrom (c :: before) after ∧ here ≠ [] ∧
      ∀ d ∈ here, IsLower d ∧ (isBlank d = true → isBlank c = true) := by
  have hfixed : ∀ d ∈ ['σ', 'ς', 'i', '\u0307'],
      lowerChar d = d ∧ d ≠ 'Σ' ∧ d ≠ 'İ' ∧ isBlank d = false := by
    simp only [List.forall_mem_cons, List.not_mem_nil, false_imp_iff, implies_true]
    decide +kernel
  have hknown : ∀ d ∈ ['σ', 'ς', 'i', '\u0307'],
      IsLower d ∧ (isBlank d = true → isBlank c = true) := fun d hd =>
    have ⟨hlower, hsigma, hdotted, hblank⟩ := hfixed d hd
    ⟨⟨hlower, hsigma, hdotted⟩, fun h => by rw [hblank] at h; cases h⟩
  by_cases hsigma : c = 'Σ'
  · cases hsigma
    by_cases hfinal : nextIsCased before && !nextIsCased after
    · refine ⟨['ς'], ?_, List.cons_ne_nil _ _, fun d hd => hknown d ?_⟩
      · rw [lowerFrom, if_pos (beq_self_eq_true _), if_pos hfinal]
      · exact List.mem_cons_of_mem _ (List.mem_append_left ['i', '\u0307'] hd)
    · refine ⟨['σ'], ?_, List.cons_ne_nil _ _, fun d hd => hknown d ?_⟩
      · rw [lowerFrom, if_pos (beq_self_eq_true _), if_neg hfinal]
      · exact List.mem_append_left ['ς', 'i', '\u0307'] hd
  by_cases hdotted : c = 'İ'
  · cases hdotted
    exact ⟨['i', '\u0307'], rfl, List.cons_ne_nil _ _, fun d hd =>
      hknown d (List.mem_append_right ['σ', 'ς'] hd)⟩
  · refine ⟨[lowerChar c], ?_, List.cons_ne_nil _ _, fun d hd => ?_⟩
    · rw [lowerFrom, if_neg (by simpa using hsigma), if_neg (by simpa using hdotted)]
    · cases List.mem_singleton.mp hd
      exact ⟨isLower_lowerChar hsigma hdotted, isBlank_of_lowerChar⟩

theorem isLower_of_mem {before cs : List Char} : ∀ d ∈ lowerFrom before cs, IsLower d := by
  induction cs generalizing before with
  | nil => exact fun d hd => absurd hd List.not_mem_nil
  | cons c after ih =>
    obtain ⟨here, hcons, -, hhere⟩ := lowerFrom_cons before c after
    intro d hd
    rw [hcons] at hd
    rcases List.mem_append.mp hd with hd | hd
    · exact (hhere d hd).1
    · exact ih d hd

/-- Characters in lower case stay as they are. -/
theorem lowerFrom_of_isLower {before cs : List Char} (h : ∀ c ∈ cs, IsLower c) :
    lowerFrom before cs = cs := by
  induction cs generalizing before with
  | nil => rfl
  | cons c after ih =>
    have hc := h c List.mem_cons_self
    rw [lowerFrom, if_neg (by simpa using hc.sigma), if_neg (by simpa using hc.dotted),
      hc.lowerChar, ih fun d hd => h d (List.mem_cons_of_mem c hd)]
    rfl

/-! ## White space -/

structure IsStripped (cs : List Char) : Prop where
  front : ∀ c ∈ cs.head?, isBlank c = false
  back : ∀ c ∈ cs.getLast?, isBlank c = false

theorem isStripped_stripChars (cs : List Char) : IsStripped (stripChars cs) := by
  constructor
  · intro c hc
    -- What is left in front is where the rest begins.
    obtain ⟨cut, hcut⟩ := List.dropWhile_suffix isBlank (l := (cs.dropWhile isBlank).reverse)
    have hwhole : stripChars cs ++ cut.reverse = cs.dropWhile isBlank := by
      rw [stripChars, dropRight, ← List.reverse_append, hcut, List.reverse_reverse]
    have hfront : c ∈ (cs.dropWhile isBlank).head? := by
      rw [← hwhole, List.head?_append, hc]
      rfl
    obtain ⟨rest, hrest⟩ := List.head?_eq_some_iff.mp hfront
    exact head_dropWhile hrest
  · intro c hc
    rw [stripChars, dropRight, List.getLast?_reverse] at hc
    obtain ⟨rest, hrest⟩ := List.head?_eq_some_iff.mp hc
    exact head_dropWhile hrest

theorem IsStripped.stripChars {cs : List Char} (h : IsStripped cs) : stripChars cs = cs := by
  have hback : ∀ c ∈ cs.reverse.head?, isBlank c = false := by
    rw [List.head?_reverse]
    exact h.back
  rw [Text.stripChars, dropWhile_of_head h.front, dropRight, dropWhile_of_head hback,
    List.reverse_reverse]

/-- Lower case has no more white space at its ends than there was. -/
theorem IsStripped.lowerFrom {before cs : List Char} (h : IsStripped cs) :
    IsStripped (lowerFrom before cs) := by
  have hvisible {c d : Char} (hc : isBlank c = false) (hd : isBlank d = true → isBlank c = true) :
      isBlank d = false := Bool.eq_false_iff.mpr fun hblank => by simp [hd hblank] at hc
  constructor
  · cases cs with
    | nil => exact fun d hd => nomatch hd
    | cons c after =>
      obtain ⟨here, hcons, hne, hhere⟩ := lowerFrom_cons before c after
      intro d hd
      rw [hcons, List.head?_append, List.head?_eq_some_head hne, Option.some_or,
        ← List.head?_eq_some_head hne] at hd
      exact hvisible (h.front c rfl) (hhere d (List.mem_of_head? hd)).2
  · replace h := h.back
    induction cs generalizing before with
    | nil => exact fun d hd => nomatch hd
    | cons c after ih =>
      obtain ⟨here, hcons, hne, hhere⟩ := lowerFrom_cons before c after
      intro d hd
      cases after with
      | nil =>
        rw [hcons, Text.lowerFrom, List.append_nil] at hd
        exact hvisible (h c rfl) (hhere d (List.mem_of_getLast? hd)).2
      | cons c' after =>
        obtain ⟨next, hnext, hne', -⟩ := lowerFrom_cons (c :: before) c' after
        have hrest : Text.lowerFrom (c :: before) (c' :: after) ≠ [] := by
          rw [hnext]
          exact List.append_ne_nil_of_left_ne_nil hne' _
        rw [hcons, List.getLast?_append, List.getLast?_eq_some_getLast hrest, Option.some_or,
          ← List.getLast?_eq_some_getLast hrest] at hd
        exact ih h d hd

end Text

namespace Localpart

open Text

/-- The normal form of a localpart is its own normal form. -/
theorem normalize?_normal {s t : String} (h : normalize? s = some t) : normalize? t = some t := by
  have hname : lower (strip s) = t := by
    unfold normalize? at h
    dsimp only at h
    split at h
    · cases h
    · exact Option.some.inj h
  have hlower : lower (strip t) = t := by
    have hstripped : IsStripped t.toList := by
      rw [← hname, lower, strip, String.toList_ofList, String.toList_ofList]
      exact (isStripped_stripChars s.toList).lowerFrom
    have hletters : ∀ c ∈ t.toList, IsLower c := by
      rw [← hname, lower, String.toList_ofList]
      exact isLower_of_mem
    rw [lower, strip, String.toList_ofList, hstripped.stripChars, lowerFrom_of_isLower hletters,
      String.ofList_toList]
  rw [normalize?, hname] at h
  rw [normalize?, hlower]
  exact h

theorem ofValue?_text (s : String) : ofValue? (.text s) = normalize? s := by
  rw [ofValue?]

theorem ofValue?_normal {v : Value} {t : String} (h : ofValue? v = some t) :
    ofValue? (.text t) = some t := by
  rw [ofValue?_text]
  cases v with
  | text s =>
    rw [ofValue?_text] at h
    exact normalize?_normal h
  | _ => cases h

end Localpart

end VirtualUsers
