import Mathlib.Data.List.DropRight
import VirtualUsers.Proofs.StringTexts
import VirtualUsers.Toml.Document
/-!
# Texts of keys

The characters of a key, up to the value of its entry or between the brackets of a header, are read
as that key whatever comes after them.
-/

namespace VirtualUsers.Toml

open Text (dropWhile_of_head head_dropWhile)

variable {cs rest : List Char}

/-- What the reader reads is read the same whatever comes after the next character. -/
def Firm {α : Type} (read : Reader α) : Prop :=
  ∀ {cs a rest}, read cs = some (a, rest) →
    ∃ m, m ≠ [] ∧ cs = m ++ rest ∧ ∀ rest', rest'.head? = rest.head? →
      read (m ++ rest') = some (a, rest')

theorem drop_takeWhile (p : Char → Bool) (cs : List Char) :
    cs.drop (cs.takeWhile p).length = cs.dropWhile p := by
  calc cs.drop (cs.takeWhile p).length
      = (cs.takeWhile p ++ cs.dropWhile p).drop (cs.takeWhile p).length := by
        rw [List.takeWhile_append_dropWhile]
    _ = cs.dropWhile p := List.drop_left

theorem takeWhile_append_of_head {p : Char → Bool} {m : List Char} (hm : ∀ c ∈ m, p c)
    (hrest : ∀ c ∈ rest.head?, p c = false) : (m ++ rest).takeWhile p = m := by
  rw [List.takeWhile_append_of_pos hm]
  cases rest with
  | nil => exact List.append_nil m
  | cons c rest => rw [List.takeWhile_cons, hrest c rfl]; exact List.append_nil m

theorem takeName_bare {m : List Char} (hne : m ≠ []) (hm : ∀ c ∈ m, isBareKeyChar c)
    (hrest : ∀ c ∈ rest.head?, isBareKeyChar c = false) :
    takeName (m ++ rest) = some (String.ofList m, rest) := by
  obtain ⟨c, m, rfl⟩ := List.exists_cons_of_ne_nil hne
  have hother (d : Char) (hd : isBareKeyChar d = false) : c ≠ d := by
    rintro rfl
    rw [hm c List.mem_cons_self] at hd
    cases hd
  unfold takeName
  split
  · next h => exact absurd (List.cons.inj h).1 (hother _ rfl)
  · next h => exact absurd (List.cons.inj h).1 (hother _ rfl)
  · rw [takeWhile_append_of_head hm hrest]
    dsimp only
    rw [List.drop_left]
    rfl

theorem takeName_firm : Firm takeName := by
  intro cs name rest h
  unfold takeName at h
  split at h
  · obtain ⟨⟨ds, next⟩, hread, h⟩ := Option.map_eq_some_iff.mp h
    cases h
    obtain ⟨m, hne, rfl, hm⟩ := takeBasic_exact hread
    refine ⟨'"' :: m, List.cons_ne_nil _ _, rfl, fun rest' _ => ?_⟩
    exact congrArg (Option.map _) (hm rest' ((m ++ rest').length + 1) (by simp; omega))
  · obtain ⟨⟨ds, next⟩, hread, h⟩ := Option.map_eq_some_iff.mp h
    cases h
    obtain ⟨m, rfl, hm⟩ := takeLiteral_exact hread
    exact ⟨'\'' :: m, List.cons_ne_nil _ _, rfl, fun rest' _ => congrArg (Option.map _) (hm rest')⟩
  · dsimp only at h
    split at h
    · cases h
    · next hname =>
      rw [drop_takeWhile] at h
      cases h
      have hhead : ∀ c ∈ (cs.dropWhile isBareKeyChar).head?, isBareKeyChar c = false := by
        intro c hc
        have hnot := List.head?_dropWhile_not isBareKeyChar cs
        rw [Option.mem_def.mp hc] at hnot
        exact hnot
      have hne : cs.takeWhile isBareKeyChar ≠ [] := by simpa using hname
      refine ⟨cs.takeWhile isBareKeyChar, hne, List.takeWhile_append_dropWhile.symm,
        fun rest' hrest => takeName_bare hne (fun c hc => List.mem_takeWhile_imp hc) ?_⟩
      rwa [hrest]

theorem head?_append_of_head {m rest rest' : List Char} (h : rest'.head? = rest.head?) :
    (m ++ rest').head? = (m ++ rest).head? := by
  cases m with
  | nil => exact h
  | cons c m => rfl

/-- White space may come before what is read. -/
theorem Firm.spaced {α : Type} {read : Reader α} (h : Firm read) :
    Firm fun cs => read (cs.dropWhile isSpace) := by
  intro cs a rest hread
  change read (cs.dropWhile isSpace) = _ at hread
  generalize hstart : cs.dropWhile isSpace = start at hread
  obtain ⟨m, hne, rfl, hm⟩ := h hread
  obtain ⟨space, rfl, -, hspace⟩ := dropWhile_exact hstart
  obtain ⟨c, m, rfl⟩ := List.exists_cons_of_ne_nil hne
  have hc := head_dropWhile hstart
  refine ⟨space ++ c :: m, by simp, by simp, fun rest' hrest => ?_⟩
  have hstart' : (c :: m ++ rest').dropWhile isSpace = c :: m ++ rest' :=
    dropWhile_of_head fun d hd => by cases hd; exact hc
  dsimp only
  rw [List.append_assoc, hspace, hstart']
  exact hm rest' hrest

theorem takeKey_point {fuel : Nat} {cs next rest : List Char} {name : String}
    (hname : takeName (cs.dropWhile isSpace) = some (name, next))
    (hpoint : next.dropWhile isSpace = '.' :: rest) :
    takeKey (fuel + 1) cs = (takeKey fuel rest).map fun p => (name :: p.1, p.2) := by
  rw [takeKey, hname]
  simp only [Option.bind_eq_bind, Option.bind_some, hpoint]
  cases takeKey fuel rest <;> rfl

theorem takeKey_last {fuel : Nat} {cs next rest : List Char} {name : String}
    (hname : takeName (cs.dropWhile isSpace) = some (name, next))
    (hspace : next.dropWhile isSpace = rest) (hpoint : rest.head? ≠ some '.') :
    takeKey (fuel + 1) cs = some ([name], rest) := by
  rw [takeKey, hname]
  simp only [Option.bind_eq_bind, Option.bind_some, hspace]
  split
  · exact absurd rfl hpoint
  · rfl

theorem takeKey_firm {fuel : Nat} {path : List String} (h : takeKey fuel cs = some (path, rest)) :
    ∃ m, m ≠ [] ∧ cs = m ++ rest ∧ ∀ rest' fuel', m.length ≤ fuel' → rest'.head? = rest.head? →
      takeKey fuel' (m ++ rest') = some (path, rest') := by
  induction fuel generalizing cs path with
  | zero => cases h
  | succ fuel ih =>
    obtain ⟨⟨name, next⟩, hname, -⟩ := Option.bind_eq_some_iff.mp h
    obtain ⟨named, hne, rfl, hread⟩ := takeName_firm.spaced hname
    generalize hnext : next.dropWhile isSpace = next' at h
    obtain ⟨space, rfl, -, hspace⟩ := dropWhile_exact hnext
    by_cases hpoint : ∃ tail, next' = '.' :: tail
    · obtain ⟨tail, rfl⟩ := hpoint
      rw [takeKey_point hname hnext] at h
      obtain ⟨⟨names, others⟩, hothers, h⟩ := Option.map_eq_some_iff.mp h
      cases h
      obtain ⟨m, hm, rfl, hagain⟩ := ih hothers
      refine ⟨named ++ (space ++ '.' :: m), by simp, by simp, fun rest' fuel' hfuel hrest => ?_⟩
      simp only [List.length_append, List.length_cons] at hfuel
      obtain ⟨fuel', rfl⟩ : ∃ n, fuel' = n + 1 := Nat.exists_eq_add_one.mpr (by omega)
      have hname' := hread (space ++ '.' :: (m ++ rest')) (head?_append_of_head rfl)
      have hpoint' : (space ++ '.' :: (m ++ rest')).dropWhile isSpace = '.' :: (m ++ rest') :=
        hspace _
      have hcs : named ++ (space ++ '.' :: m) ++ rest' =
          named ++ (space ++ '.' :: (m ++ rest')) := by simp
      rw [hcs, takeKey_point hname' hpoint', hagain rest' fuel' (by omega) hrest]
      rfl
    · have hlast : next'.head? ≠ some '.' := by
        intro hhead
        cases next' with
        | nil => cases hhead
        | cons c tail =>
          cases hhead
          exact hpoint ⟨tail, rfl⟩
      rw [takeKey_last hname hnext hlast] at h
      cases h
      refine ⟨named ++ space, by simp [hne], by simp, fun rest' fuel' hfuel hrest => ?_⟩
      obtain ⟨fuel', rfl⟩ := Nat.exists_eq_add_one.mpr (Nat.zero_lt_of_lt
        (Nat.lt_of_lt_of_le (List.length_pos_iff.mpr (by simp [hne])) hfuel))
      rw [List.append_assoc]
      refine takeKey_last (hread _ (head?_append_of_head hrest)) ?_ (hrest ▸ hlast)
      rw [hspace]
      refine dropWhile_of_head fun c hc => ?_
      rw [hrest] at hc
      obtain ⟨tail, rfl⟩ := List.head?_eq_some_iff.mp hc
      exact head_dropWhile hnext

/-- The characters of a key up to the value, with the equals sign and white space around it. -/
structure KeyText (m : List Char) (path : List String) : Prop where
  ne_nil : m ≠ []
  read : ∀ rest, rest.dropWhile isSpace = rest → takeKeyAndSign (m ++ rest) = some (path, rest)

theorem takeKeyAndSign_sign {path : List String} {value : List Char}
    (h : takeKey (cs.length + 1) cs = some (path, '=' :: value)) :
    takeKeyAndSign cs = some (path, value.dropWhile isSpace) := by
  rw [takeKeyAndSign, h]
  rfl

theorem takeKeyAndSign_text {path : List String} (h : takeKeyAndSign cs = some (path, rest)) :
    rest.dropWhile isSpace = rest ∧ ∃ m, cs = m ++ rest ∧ KeyText m path := by
  obtain ⟨⟨names, next⟩, hkey, hnext⟩ := Option.bind_eq_some_iff.mp h
  dsimp only at hnext
  split at hnext
  · next tail =>
    obtain ⟨hpath, hrest⟩ := Prod.mk.inj (Option.some.inj hnext)
    cases hpath
    obtain ⟨key, hne, rfl, hread⟩ := takeKey_firm hkey
    obtain ⟨space, hspace, -, hagain⟩ := dropWhile_exact hrest
    refine ⟨hrest ▸ List.dropWhile_idempotent isSpace tail, key ++ '=' :: space, by simp [hspace],
      by simp, fun rest' hstart => ?_⟩
    have hkey' := hread ('=' :: (space ++ rest')) ((key ++ '=' :: (space ++ rest')).length + 1)
      (by simp; omega) rfl
    rw [List.append_assoc, List.cons_append, takeKeyAndSign_sign hkey', hagain, hstart]
  · cases hnext

theorem takeKey_ne_nil {fuel : Nat} {path : List String} (h : takeKey fuel cs = some (path, rest)) :
    path ≠ [] := by
  cases fuel with
  | zero => cases h
  | succ fuel =>
    obtain ⟨⟨name, next⟩, -, h⟩ := Option.bind_eq_some_iff.mp h
    dsimp only at h
    split at h
    · obtain ⟨⟨names, others⟩, -, h⟩ := Option.bind_eq_some_iff.mp h
      cases h
      exact List.cons_ne_nil _ _
    · cases h
      exact List.cons_ne_nil _ _

theorem takeKeyAndSign_eq_some {path : List String} {value : List Char}
    (h : takeKeyAndSign cs = some (path, value)) : ∃ rest,
      takeKey (cs.length + 1) cs = some (path, '=' :: rest) ∧
      value = rest.dropWhile isSpace := by
  obtain ⟨⟨names, next⟩, hkey, h⟩ := Option.bind_eq_some_iff.mp h
  dsimp only at h
  split at h
  · cases h
    exact ⟨_, hkey, rfl⟩
  · cases h

theorem KeyText.path_ne_nil {m : List Char} {path : List String} (h : KeyText m path) :
    path ≠ [] := by
  obtain ⟨rest, hkey, -⟩ := takeKeyAndSign_eq_some (h.read [] rfl)
  exact takeKey_ne_nil hkey

/-- White space may come before a key. -/
theorem KeyText.indent {m space : List Char} {path : List String} (h : KeyText m path)
    (hspace : ∀ c ∈ space, isSpace c = true) : KeyText (space ++ m) path := by
  refine ⟨by simp [h.ne_nil], fun rest hrest => ?_⟩
  obtain ⟨tail, hkey, hvalue⟩ := takeKeyAndSign_eq_some (h.read rest hrest)
  obtain ⟨key, -, hcs, hread⟩ := takeKey_firm hkey
  have hlength : key.length ≤ (m ++ rest).length := by simp [hcs]
  have hlonger := hread ('=' :: tail) ((space ++ m ++ rest).length + 1)
    (by simp at hlength ⊢; omega) rfl
  rw [← hcs] at hlonger
  have hsame : takeKey ((space ++ m ++ rest).length + 1) (space ++ m ++ rest) =
      takeKey ((space ++ m ++ rest).length + 1) (m ++ rest) := by
    rw [takeKey, takeKey, List.append_assoc, List.dropWhile_append_of_pos hspace]
  have hagain := takeKeyAndSign_sign (hsame.trans hlonger)
  rwa [← hvalue] at hagain

theorem takeHeader_many {path : List String}
    (h : takeKey (cs.length + 1) cs = some (path, ']' :: ']' :: rest)) :
    takeHeader ('[' :: '[' :: cs) = some ((path, true), rest) := by
  rw [takeHeader, h]
  rfl

theorem takeHeader_one {path : List String} (hone : ∀ tail, cs ≠ '[' :: tail)
    (h : takeKey (cs.length + 1) cs = some (path, ']' :: rest)) :
    takeHeader ('[' :: cs) = some ((path, false), rest) := by
  rw [takeHeader, h]
  · rfl
  · exact hone

theorem takeHeader_exact : Exact takeHeader := by
  intro cs a rest h
  unfold takeHeader at h
  split at h
  · obtain ⟨⟨names, next⟩, hkey, hnext⟩ := Option.bind_eq_some_iff.mp h
    dsimp only at hnext
    split at hnext
    · cases hnext
      obtain ⟨key, hne, rfl, hread⟩ := takeKey_firm hkey
      refine ⟨'[' :: '[' :: (key ++ [']', ']']), by simp, fun rest' => ?_⟩
      simp only [List.cons_append, List.append_assoc, List.nil_append]
      exact takeHeader_many (hread _ _ (by simp; omega) rfl)
    · cases hnext
  · next tail hone =>
    obtain ⟨⟨names, next⟩, hkey, hnext⟩ := Option.bind_eq_some_iff.mp h
    dsimp only at hnext
    split at hnext
    · cases hnext
      obtain ⟨key, hne, rfl, hread⟩ := takeKey_firm hkey
      refine ⟨'[' :: (key ++ [']']), by simp, fun rest' => ?_⟩
      obtain ⟨c, key, rfl⟩ := List.exists_cons_of_ne_nil hne
      simp only [List.cons_append, List.append_assoc, List.nil_append]
      refine takeHeader_one ?_ (hread _ _ (by simp; omega) rfl)
      rintro tail hsame
      obtain ⟨rfl, -⟩ := List.cons.inj hsame
      exact hone _ rfl
    · cases hnext
  · cases h

end VirtualUsers.Toml
