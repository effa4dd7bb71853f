import VirtualUsers.Proofs.LineTexts
/-!
# Texts of new lines

The lines that a registry gets are read as they are written, and so are all the others once they are
in their new places.
-/

namespace VirtualUsers.Registry

open Toml

variable {ids : List String} {indent : List Char} {l : Line} {d : Document}

/-! ## Arrays -/

theorem skips_space {m : List Char} {c : Char} (hm : ∀ d ∈ m, isSpaceOrLine d = true)
    (hc : isSpaceOrLine c = false) (hcomment : c ≠ '#') : Skips m c := by
  intro rest fuel hfuel
  obtain ⟨fuel, rfl⟩ := Nat.exists_eq_add_one.mpr (Nat.zero_lt_of_lt hfuel)
  refine skipLines_to ?_ hcomment
  rw [List.dropWhile_append_of_pos hm, List.dropWhile_cons, hc]
  rfl

theorem isSpaceOrLine_of_isSpace {c : Char} (h : isSpace c = true) : isSpaceOrLine c = true := by
  rw [isSpaceOrLine, h]
  rfl

theorem valueText_writeString {s : String} (h : s ≠ "") : ValueText (writeString s) (.text s) := by
  refine ⟨List.cons_ne_nil _ _, fun depth rest hdepth _ => ?_⟩
  obtain ⟨depth, rfl⟩ : ∃ n, depth = n + 1 :=
    Nat.exists_eq_add_one.mpr (Nat.lt_of_lt_of_le (by simp [writeString]) hdepth)
  exact takeValue_writeString depth h rest

/-- The items of an array, each on a line of its own, up to the closing bracket. -/
theorem itemsText_written (hindent : ∀ c ∈ indent, isSpace c = true) (h : ∀ id ∈ ids, id ≠ "") :
    ItemsText ('\n' :: (ids.flatMap (fun id => indent ++ "    ".toList ++ writeString id ++
      [',', '\n']) ++ indent ++ [']'])) (ids.map .text) := by
  have hspace {m : List Char} (hm : ∀ c ∈ m, isSpace c = true) :
      ∀ c ∈ '\n' :: (indent ++ m), isSpaceOrLine c = true := by
    intro c hc
    rcases List.mem_cons.mp hc with rfl | hc
    · rfl
    · exact isSpaceOrLine_of_isSpace ((List.mem_append.mp hc).elim (hindent c) (hm c))
  induction ids with
  | nil =>
    have hclose : Skips ('\n' :: (indent ++ [])) ']' :=
      skips_space (hspace (by simp)) (by decide) (by decide)
    rw [List.append_nil] at hclose
    exact ItemsText.close hclose
  | cons id ids ih =>
    have hothers := ih fun other hother => h other (List.mem_cons_of_mem id hother)
    have hstart : Skips ('\n' :: (indent ++ "    ".toList)) '"' :=
      skips_space (hspace (List.all_eq_true.mp rfl)) (by decide) (by decide)
    have hcomma : Skips [] ',' := skips_space (by simp) (by decide) (by decide)
    have hitem := valueText_writeString (h id List.mem_cons_self)
    have htext := ItemsText.more hstart (by decide) hitem hcomma hothers
    simpa [writeString] using htext

theorem valueText_writeArray (hindent : ∀ c ∈ indent, isSpace c = true)
    (h : ∀ id ∈ ids, id ≠ "") : ValueText (writeArray indent ids) (arrayOf ids) := by
  have htext := (itemsText_written hindent h).value
  simpa [writeArray, arrayOf] using htext

/-! ## Lines -/

theorem head_writeArray (indent : List Char) (ids : List String) :
    ∀ c ∈ (writeArray indent ids).head?, isSpace c = false := by
  rintro c ⟨⟩
  rfl

theorem keyText_users : KeyText "users = ".toList [usersName] :=
  ⟨by decide, fun rest hrest => by
    change some ([usersName], rest.dropWhile isSpace) = _
    rw [hrest]⟩

theorem keyText_usersPath : KeyText "registered.users = ".toList usersPath :=
  ⟨by decide, fun rest hrest => by
    change some (usersPath, rest.dropWhile isSpace) = _
    rw [hrest]⟩

theorem endText_nil : EndText [] :=
  EndText.space (by simp)

theorem closed_newEntry {path : List String} (hindent : ∀ c ∈ indent, isSpace c = true)
    (hpath : path = [usersName] ∨ path = usersPath) (h : ∀ id ∈ ids, id ≠ "") :
    Closed (newEntry indent path ids) := by
  have hvalue := valueText_writeArray hindent h
  refine ⟨_, [], .entry hindent ?_ ?_ hvalue (head_writeArray _ _) endText_nil, rfl⟩
  · rcases hpath with rfl | rfl <;>
    · rintro c ⟨⟩
      rfl
  · rcases hpath with rfl | rfl
    · exact keyText_users
    · exact keyText_usersPath

theorem takeHeader_table (rest : List Char) :
    takeHeader ("[registered]".toList ++ rest) = some (([tableName], false), rest) := rfl

theorem closed_tableHeader {tail : List Char} (hindent : ∀ c ∈ indent, isSpace c = true)
    (htail : EndText tail) : Closed (tableHeader indent (tail ++ ['\n'])) :=
  ⟨_, tail, .header hindent rfl (fun rest => takeHeader_table rest) htail, rfl⟩

theorem closed_blank (hindent : ∀ c ∈ indent, isSpace c = true) :
    Closed (.blank (indent ++ ['\n'])) :=
  ⟨_, indent, .blank hindent, rfl⟩

/-- A line is as open as before with the array in place of its value. -/
theorem lineText_refill {make : List Char → Line} {tail : List Char} (h : LineText make tail)
    (hids : ∀ id ∈ ids, id ≠ "") : ∃ make', LineText make' tail ∧
      (∀ m, refill ids (make m) = make' m) ∧ ∀ m, (make m).text ≠ [] → (make' m).text ≠ [] := by
  cases h with
  | blank hspace => exact ⟨_, .blank hspace, fun _ => rfl, fun _ h => h⟩
  | comment htail hfirst => exact ⟨_, .comment htail hfirst, fun _ => rfl, fun _ h => h⟩
  | header hindent hfirst hheader htail =>
    exact ⟨_, .header hindent hfirst hheader htail, fun _ => rfl, fun _ h => h⟩
  | @entry indent key written _ path v hindent hkey htext hvalue hwritten htail =>
    have hspace : ∀ c ∈ (indent ++ key).takeWhile isSpace, isSpace c = true := fun c hc =>
      List.mem_takeWhile_imp hc
    have harray := valueText_writeArray hspace hids
    refine ⟨_, .entry hindent hkey htext harray (head_writeArray _ _) htail, fun _ => rfl,
      fun m _ => ?_⟩
    simp [Line.text, harray.ne_nil]

theorem whole_refill (h : Whole l) (hids : ∀ id ∈ ids, id ≠ "") : Whole (refill ids l) := by
  rcases h with ⟨make, tail, htext, rfl⟩ | ⟨make, tail, htext, rfl, hne⟩
  · obtain ⟨make', htext', hrefill, -⟩ := lineText_refill htext hids
    exact .inl ⟨make', tail, htext', hrefill _⟩
  · obtain ⟨make', htext', hrefill, hne'⟩ := lineText_refill htext hids
    exact .inr ⟨make', tail, htext', hrefill _, by rw [hrefill]; exact hne' _ hne⟩

theorem closed_refill (h : Closed l) (hids : ∀ id ∈ ids, id ≠ "") :
    Closed (refill ids l) := by
  obtain ⟨make, tail, htext, rfl⟩ := h
  obtain ⟨make', htext', hrefill, -⟩ := lineText_refill htext hids
  exact ⟨make', tail, htext', hrefill _⟩

theorem headerEnd_text (h : Whole l) : ∃ tail, EndText tail ∧ headerEnd l = tail ++ ['\n'] := by
  have hend {make : List Char → Line} {tail m : List Char} (htext : LineText make tail)
      (hm : withEnd m = tail ++ ['\n']) : ∃ tail', EndText tail' ∧ headerEnd (make m) =
        tail' ++ ['\n'] := by
    cases htext with
    | blank | comment | entry => exact ⟨[], endText_nil, rfl⟩
    | header _ _ _ htail => exact ⟨tail, htail, hm⟩
  rcases h with ⟨make, tail, htext, rfl⟩ | ⟨make, tail, htext, rfl, -⟩
  · exact hend htext (withEnd_closed htext.noLine).2
  · exact hend htext (withEnd_closed htext.noLine).1

theorem isSpace_blank {cs : List Char} (h : Whole (.blank cs)) (hline : cs.contains '\n' = false) :
    ∀ c ∈ cs, isSpace c = true := by
  have hspace {make : List Char → Line} {tail m : List Char} (htext : LineText make tail)
      (hcs : Line.blank cs = make m) : cs = m ∧ ∀ c ∈ tail, isSpace c = true := by
    cases htext with
    | comment | header | entry => cases hcs
    | blank hspace =>
      cases hcs
      exact ⟨rfl, hspace⟩
  rcases h with ⟨make, tail, htext, hcs⟩ | ⟨make, tail, htext, hcs, -⟩
  · obtain ⟨rfl, -⟩ := hspace htext hcs
    simp at hline
  · obtain ⟨rfl, hall⟩ := hspace htext hcs
    exact hall

theorem isSpace_indentOf (l : Line) : ∀ c ∈ indentOf l, isSpace c = true := by
  cases l with
  | blank | comment | entry => simp [indentOf]
  | header indent =>
    intro c hc
    have hspace := List.mem_takeWhile_imp (p := (· == ' ')) hc
    rw [isSpace, hspace]
    rfl

/-! ## Documents -/

theorem withoutUsers_sublist (section_ : List String) (d : Document) :
    List.Sublist (withoutUsers section_ d) d := by
  induction d generalizing section_ with
  | nil => exact List.Sublist.slnil
  | cons l d ih =>
    rw [withoutUsers]
    split
    · exact (ih _).cons l
    · exact (ih _).cons_cons l

theorem closed_endLast (h : Written d) : ∀ l ∈ endLast d, Closed l := by
  unfold endLast
  split
  · next l hlast =>
    obtain ⟨front, rfl⟩ := List.getLast?_eq_some_iff.mp hlast
    rw [List.dropLast_concat]
    intro l' hl'
    rcases List.mem_append.mp hl' with hl' | hl'
    · exact (List.pairwise_append.mp h.closed).2.2 l' hl' l (List.mem_singleton_self l)
    · cases List.mem_singleton.mp hl'
      exact (h.whole l (by simp)).endLine
  · next hlast =>
    rw [List.getLast?_eq_none_iff.mp hlast]
    simp

theorem written_closed (h : ∀ l ∈ d, Closed l) : Written d := by
  have hnil : Written [] := ⟨List.Pairwise.nil, by simp⟩
  simpa using Written.append h hnil

/-- The new lines have line ends, or they are the last ones. -/
theorem Place.written {p : Place} (hbefore : Written p.before) (hrest : Written p.rest)
    (hnew : (∀ l ∈ p.new, Closed l) ∨ Written p.new ∧ p.rest = []) : Written p.fill := by
  have hfront := closed_endLast (hbefore.sublist (withoutUsers_sublist [] p.before))
  have hback := hrest.sublist (withoutUsers_sublist (Document.sectionOf p.before) p.rest)
  rw [Place.fill, List.append_assoc]
  rcases hnew with hnew | ⟨hnew, hnil⟩
  · exact Written.append hfront (Written.append hnew hback)
  · rw [hnil, withoutUsers, List.append_nil]
    exact Written.append hfront hnew

end VirtualUsers.Registry
