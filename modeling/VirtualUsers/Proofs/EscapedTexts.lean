import Mathlib.Data.List.TakeWhile
import VirtualUsers.Toml.Written
/-!
# Texts with escapes

A text is read as it was written between quotes, whatever characters are in it: those that cannot
stand there are written as escapes.
-/

namespace VirtualUsers

namespace Toml

open Text (hex)

/-! ## Hexadecimal numbers -/

def hexNumber? (n : Nat) (digits : List Char) : Option Nat :=
  digits.foldlM (fun n c => (hexValue? c).map (16 * n + ·)) n

theorem takeHex_append (n : Nat) (digits cs : List Char) :
    takeHex n digits.length (digits ++ cs) = (hexNumber? n digits).map (·, cs) := by
  induction digits generalizing n with
  | nil => rfl
  | cons d digits ih =>
    rw [List.length_cons, List.cons_append, takeHex, hexNumber?, List.foldlM_cons]
    cases hexValue? d with
    | none => rfl
    | some value => exact ih (16 * n + value)

theorem hexValue?_digitChar : ∀ k < 16, hexValue? (Nat.digitChar k) = some k := by
  decide +kernel

theorem hexNumber?_append (n : Nat) (ds es : List Char) :
    hexNumber? n (ds ++ es) = hexNumber? n ds >>= (hexNumber? · es) := by
  rw [hexNumber?, List.foldlM_append]
  rfl

theorem hexNumber?_digit (n : Nat) {k : Nat} (h : k < 16) :
    hexNumber? n [Nat.digitChar k] = some (16 * n + k) := by
  rw [hexNumber?, List.foldlM_cons, hexValue?_digitChar k h]
  rfl

theorem hexNumber?_toDigits (n : Nat) : hexNumber? 0 (Nat.toDigits 16 n) = some n := by
  induction n using Nat.strong_induction_on with
  | h n ih =>
    by_cases hn : n < 16
    · rw [Nat.toDigits_of_lt_base hn, hexNumber?_digit 0 hn, Nat.mul_zero, Nat.zero_add]
    · rw [Nat.toDigits_of_base_le (by decide) (Nat.le_of_not_lt hn), hexNumber?_append,
        ih (n / 16) (by omega), Option.bind_eq_bind, Option.bind_some,
        hexNumber?_digit _ (Nat.mod_lt n (by decide)), Nat.div_add_mod]

theorem hexNumber?_hex (width n : Nat) : hexNumber? 0 (hex width n) = some n := by
  have hzeros (count : Nat) : hexNumber? 0 (List.replicate count '0') = some 0 := by
    induction count with
    | zero => rfl
    | succ count ih => exact ih
  rw [hex, hexNumber?_append, hzeros]
  exact hexNumber?_toDigits n

theorem length_hex {width n : Nat} (hwidth : 0 < width) (h : n < Nat.pow 16 width) :
    (hex width n).length = width := by
  have hle := (Nat.length_toDigits_le_iff (b := 16) (by decide) hwidth).mpr h
  rw [hex, List.length_append, List.length_replicate, Nat.sub_add_cancel hle]

theorem takeHex_hex {width n : Nat} (hwidth : 0 < width) (h : n < Nat.pow 16 width)
    (cs : List Char) : takeHex 0 width (hex width n ++ cs) = some (n, cs) := by
  have hdigits := takeHex_append 0 (hex width n) cs
  rwa [length_hex hwidth h, hexNumber?_hex] at hdigits

theorem exists_digit_of_mem_toDigits (n : Nat) :
    ∀ d ∈ Nat.toDigits 16 n, ∃ k < 16, d = Nat.digitChar k := by
  induction n using Nat.strong_induction_on with
  | h n ih =>
    intro d hd
    by_cases hn : n < 16
    · rw [Nat.toDigits_of_lt_base hn] at hd
      exact ⟨n, hn, List.mem_singleton.mp hd⟩
    · rw [Nat.toDigits_of_base_le (by decide) (Nat.le_of_not_lt hn)] at hd
      rcases List.mem_append.mp hd with hd | hd
      · exact ih (n / 16) (by omega) d hd
      · exact ⟨n % 16, Nat.mod_lt n (by decide), List.mem_singleton.mp hd⟩

theorem exists_digit_of_mem_hex {width n : Nat} {d : Char} (h : d ∈ hex width n) :
    ∃ k < 16, d = Nat.digitChar k := by
  rcases List.mem_append.mp h with hzero | hd
  · exact ⟨0, by decide, List.eq_of_mem_replicate hzero⟩
  · exact exists_digit_of_mem_toDigits n d hd

/-- A hexadecimal digit is visible, and no quote. -/
theorem visible_of_mem_hex {width n : Nat} {d : Char} (h : d ∈ hex width n) :
    isControl d = false ∧ d ≠ '\'' ∧ d ≠ '"' := by
  have hall : ∀ k < 16, isControl (Nat.digitChar k) = false ∧ Nat.digitChar k ≠ '\'' ∧
      Nat.digitChar k ≠ '"' := by
    decide +kernel
  obtain ⟨k, hk, rfl⟩ := exists_digit_of_mem_hex h
  exact hall k hk

/-! ## Strings -/

theorem scalar?_toNat (c : Char) : scalar? c.toNat = some c :=
  dif_pos c.valid

theorem toNat_of_isControl {c : Char} (h : isControl c) : c.toNat < 128 := by
  simp only [isControl, Bool.or_eq_true, Bool.and_eq_true, decide_eq_true_eq, beq_iff_eq] at h
  omega

variable {fuel : Nat}

def prepend (c : Char) (rest : Option (List Char × List Char)) : Option (List Char × List Char) :=
  rest.map fun p => (c :: p.1, p.2)

theorem takeBasic_backslash {c : Char} {cs rest : List Char} (h : takeEscape cs = some (c, rest)) :
    takeBasic (fuel + 1) ('\\' :: cs) = prepend c (takeBasic fuel rest) := by
  have hstep : takeBasic (fuel + 1) ('\\' :: cs) =
      takeEscape cs >>= fun p => prepend p.1 (takeBasic fuel p.2) := by
    rw [takeBasic, if_neg (by decide), if_pos (by decide)]
    cases takeEscape cs with
    | none => rfl
    | some p => cases hrest : takeBasic fuel p.2 <;> simp [prepend, hrest]
  rw [hstep, h]
  rfl

theorem takeBasic_plain {c : Char} (hquote : c ≠ '"') (hbackslash : c ≠ '\\')
    (hcontrol : isControl c = false) (cs : List Char) :
    takeBasic (fuel + 1) (c :: cs) = prepend c (takeBasic fuel cs) := by
  rw [takeBasic, if_neg (by simpa using hquote), if_neg (by simpa using hbackslash),
    if_neg (by simp [hcontrol])]
  cases takeBasic fuel cs <;> rfl

/-- A character is read from the digits of its number. -/
theorem takeEscape_number {c d : Char} {width : Nat} (h : c.toNat < Nat.pow 16 width)
    (hd : d = 'u' ∧ width = 4 ∨ d = 'U' ∧ width = 8) (cs : List Char) :
    takeEscape (d :: (hex width c.toNat ++ cs)) = some (c, cs) := by
  have hstep : takeEscape (d :: (hex width c.toNat ++ cs)) =
      takeHex 0 width (hex width c.toNat ++ cs) >>= fun p =>
        scalar? p.1 >>= fun e => some (e, p.2) := by
    rcases hd with ⟨rfl, rfl⟩ | ⟨rfl, rfl⟩ <;> rfl
  have hwidth : 0 < width := by rcases hd with ⟨-, rfl⟩ | ⟨-, rfl⟩ <;> decide
  rw [hstep, takeHex_hex hwidth h, Option.bind_eq_bind, Option.bind_some]
  change scalar? c.toNat >>= _ = _
  rw [scalar?_toNat]
  rfl

theorem takeEscape_control {c : Char} (h : isControl c) (cs : List Char) :
    takeEscape ('u' :: (hex 4 c.toNat ++ cs)) = some (c, cs) :=
  takeEscape_number (Nat.lt_trans (toNat_of_isControl h) (by decide)) (.inl ⟨rfl, rfl⟩) cs

/-- What is written for a character is read as that character. -/
theorem takeBasic_escapeChar (c : Char) (cs : List Char) :
    takeBasic (fuel + 1) (escapeChar c ++ cs) = prepend c (takeBasic fuel cs) := by
  unfold escapeChar
  split
  iterate 7 exact takeBasic_backslash rfl
  next hquote hbackslash _ _ _ _ _ =>
    split
    · next hcontrol => exact takeBasic_backslash (takeEscape_control hcontrol cs)
    · next hcontrol => exact takeBasic_plain hquote hbackslash (by simpa using hcontrol) cs

theorem takeBasic_written (s rest : List Char) (h : s.length < fuel) :
    takeBasic fuel (s.flatMap escapeChar ++ '"' :: rest) = some (s, rest) := by
  induction s generalizing fuel with
  | nil =>
    obtain ⟨fuel, rfl⟩ := Nat.exists_eq_add_one.mpr h
    rfl
  | cons c s ih =>
    obtain ⟨fuel, rfl⟩ := Nat.exists_eq_add_one.mpr (Nat.zero_lt_of_lt h)
    rw [List.flatMap_cons, List.append_assoc, takeBasic_escapeChar,
      ih (Nat.lt_of_succ_lt_succ h)]
    rfl

/-- What is written for a character does not begin with a quote. -/
theorem escapeChar_cons (c : Char) : ∃ d ds, escapeChar c = d :: ds ∧ d ≠ '"' := by
  unfold escapeChar
  split
  iterate 7 exact ⟨_, _, rfl, by decide⟩
  next hquote _ _ _ _ _ _ =>
    split
    · exact ⟨_, _, rfl, by decide⟩
    · exact ⟨c, [], rfl, hquote⟩

theorem length_le_flatMap {α β : Type} {f : α → List β} (h : ∀ a, f a ≠ []) (as : List α) :
    as.length ≤ (as.flatMap f).length := by
  induction as with
  | nil => exact Nat.le_refl 0
  | cons a as ih =>
    have hfirst := List.length_pos_iff.mpr (h a)
    rw [List.flatMap_cons, List.length_append, List.length_cons]
    omega

theorem escapeChar_ne_nil (c : Char) : escapeChar c ≠ [] := by
  obtain ⟨d, ds, hc, -⟩ := escapeChar_cons c
  rw [hc]
  exact List.cons_ne_nil d ds

theorem takeString_basic {d : Char} (h : d ≠ '"') (cs : List Char) :
    takeString ('"' :: d :: cs) = (takeBasic ((d :: cs).length + 1) (d :: cs)).map
      fun p => (String.ofList p.1, p.2) := by
  unfold takeString
  split <;> simp_all

/-- A text is read as it was written, unless it is empty: its two quotes may be the first two of
three. -/
theorem takeString_writeString {s : String} (h : s ≠ "") (rest : List Char) :
    takeString (writeString s ++ rest) = some (s, rest) := by
  have hwritten : writeString s ++ rest = '"' :: (s.toList.flatMap escapeChar ++ '"' :: rest) := by
    rw [writeString, List.append_assoc]
    rfl
  have hfront : ∃ d ds, s.toList.flatMap escapeChar ++ '"' :: rest = d :: ds ∧ d ≠ '"' := by
    cases hs : s.toList with
    | nil => exact absurd (String.toList_eq_nil_iff.mp hs) h
    | cons c cs =>
      obtain ⟨d, ds, hc, hd⟩ := escapeChar_cons c
      exact ⟨d, _, by rw [List.flatMap_cons, hc]; rfl, hd⟩
  obtain ⟨d, ds, hcs, hd⟩ := hfront
  rw [hwritten, hcs, takeString_basic hd, ← hcs, takeBasic_written]
  · change some (String.ofList s.toList, rest) = _
    rw [String.ofList_toList]
  · have hle := length_le_flatMap escapeChar_ne_nil s.toList
    rw [List.length_append]
    omega

/-- No carriage return is written into a string, since each has an escape. -/
theorem return_notMem_escapeChar (c : Char) : '\r' ∉ escapeChar c := by
  unfold escapeChar
  split
  iterate 7 decide
  next hreturn =>
    split
    · intro hmem
      rcases List.mem_cons.mp hmem with heq | hmem
      · cases heq
      rcases List.mem_cons.mp hmem with heq | hmem
      · cases heq
      · cases (visible_of_mem_hex hmem).1
    · exact fun h => hreturn (List.mem_singleton.mp h).symm

theorem return_notMem_writeString (s : String) : '\r' ∉ writeString s := by
  simp [writeString, return_notMem_escapeChar]

theorem takeValue_writeString (depth : Nat) {s : String} (h : s ≠ "") (rest : List Char) :
    takeValue (depth + 1) (writeString s ++ rest) = some (.text s, rest) := by
  have hstep : takeValue (depth + 1) (writeString s ++ rest) =
      (takeString (writeString s ++ rest)).map fun p => (.text p.1, p.2) := rfl
  rw [hstep, takeString_writeString h]
  rfl

end Toml

end VirtualUsers
