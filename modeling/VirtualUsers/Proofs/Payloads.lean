import VirtualUsers.Proofs.Outcome
import VirtualUsers.Room.Event
/-!
# Texts in payloads

What is read from the payload of a value ends where the payload ends, and it has the same texts as
the value: a text is read as it was written, and of the entries of a map the keys and values that
are texts come back, of several with the same key the last. Other values are not followed here.
-/

namespace VirtualUsers

namespace Text

/-- A text is what its bytes spell. -/
theorem ofUtf8?_utf8 (s : String) : ofUtf8? (utf8 s) = some s := by
  have hbytes : (⟨(utf8 s).toArray⟩ : ByteArray) = s.toUTF8 := by
    rw [utf8, Array.toArray_toList]
  rw [ofUtf8?, hbytes]
  exact dif_pos s.isValidUTF8

end Text

namespace Cbor

open Text

/-! ## Numbers -/

theorem length_bigEndian (width n : Nat) : (bigEndian width n).length = width := by
  induction width with
  | zero => rfl
  | succ width ih => rw [bigEndian, List.length_cons, ih]

theorem foldl_bigEndian (width n acc : Nat) :
    (bigEndian width n).foldl (fun m b => 256 * m + b.toNat) acc =
      acc * Nat.pow 256 width + n % Nat.pow 256 width := by
  induction width generalizing acc with
  | zero => simp [bigEndian, Nat.mod_one]
  | succ width ih =>
    have hdigit : (UInt8.ofNat (n / Nat.pow 256 width)).toNat = n / Nat.pow 256 width % 256 := rfl
    have hmod : n % Nat.pow 256 (width + 1) =
        n % Nat.pow 256 width + Nat.pow 256 width * (n / Nat.pow 256 width % 256) :=
      Nat.mod_pow_succ
    have hpow : acc * Nat.pow 256 (width + 1) = 256 * acc * Nat.pow 256 width := by
      have hsucc : Nat.pow 256 (width + 1) = 256 * Nat.pow 256 width := Nat.pow_succ'
      rw [hsucc, ← Nat.mul_assoc, Nat.mul_comm acc 256]
    rw [bigEndian, List.foldl_cons, ih, hdigit, hmod, hpow, Nat.add_mul,
      Nat.mul_comm (Nat.pow 256 width)]
    omega

theorem ofBigEndian_bigEndian {width n : Nat} (h : n < Nat.pow 256 width) :
    ofBigEndian (bigEndian width n) = n := by
  rw [ofBigEndian, foldl_bigEndian, Nat.zero_mul, Nat.zero_add, Nat.mod_eq_of_lt h]

theorem takeBytes_append {n : Nat} {bs : List UInt8} (h : bs.length = n) (rest : List UInt8) :
    takeBytes n (bs ++ rest) = some (bs, rest) := by
  rw [takeBytes, List.take_left' h, List.drop_left' h, if_pos h]

/-- The first byte of an item holds its type and a small number. -/
theorem toNat_first {major k : Nat} (hmajor : major < 8) (hk : k < 32) :
    (UInt8.ofNat (32 * major + k)).toNat = 32 * major + k := by
  rw [UInt8.toNat_ofNat']
  omega

theorem argument_small {n : Nat} (h : n < 24) (rest : List UInt8) :
    argument n rest = some (some n, rest) := by
  unfold argument
  rw [if_pos h]

theorem argument_wide {low width n : Nat}
    (hlow : (low, width) ∈ [(24, 1), (25, 2), (26, 4), (27, 8)]) (hn : n < Nat.pow 256 width)
    (rest : List UInt8) : argument low (bigEndian width n ++ rest) = some (some n, rest) := by
  have htake : (takeBytes width (bigEndian width n ++ rest)).map
      (fun p => (some (ofBigEndian p.1), p.2)) = some (some n, rest) := by
    rw [takeBytes_append (length_bigEndian width n), Option.map_some, ofBigEndian_bigEndian hn]
  simp only [List.mem_cons, Prod.mk.injEq, List.not_mem_nil, or_false] at hlow
  rcases hlow with ⟨rfl, rfl⟩ | ⟨rfl, rfl⟩ | ⟨rfl, rfl⟩ | ⟨rfl, rfl⟩ <;> exact htake

/-- From its head the type and the number of an item can be read again. -/
theorem head_read {major n : Nat} (hmajor : major < 8) (hn : n < Nat.pow 2 64) (rest : List UInt8) :
    ∃ b tail, head major n = b :: tail ∧ b.toNat / 32 = major ∧
      argument (b.toNat % 32) (tail ++ rest) = some (some n, rest) := by
  have hfirst {k : Nat} (hk : k < 32) :
      (UInt8.ofNat (32 * major + k)).toNat / 32 = major ∧
        (UInt8.ofNat (32 * major + k)).toNat % 32 = k := by
    rw [toNat_first hmajor hk]
    omega
  have hwide {low width : Nat} (hlow : (low, width) ∈ [(24, 1), (25, 2), (26, 4), (27, 8)])
      (hk : low < 32) (hwidth : n < Nat.pow 256 width)
      (hhead : head major n = UInt8.ofNat (32 * major + low) :: bigEndian width n) :
      ∃ b tail, head major n = b :: tail ∧ b.toNat / 32 = major ∧
        argument (b.toNat % 32) (tail ++ rest) = some (some n, rest) := by
    refine ⟨_, _, hhead, (hfirst hk).1, ?_⟩
    rw [(hfirst hk).2]
    exact argument_wide hlow hwidth rest
  by_cases h₁ : n < 24
  · refine ⟨UInt8.ofNat (32 * major + n), [], ?_, (hfirst (by omega)).1, ?_⟩
    · rw [head, if_pos h₁]
    · rw [(hfirst (by omega)).2]
      exact argument_small h₁ rest
  · by_cases h₂ : n < 0x100
    · exact @hwide 24 1 (by decide) (by omega) h₂ (by rw [head, if_neg h₁, if_pos h₂])
    · by_cases h₃ : n < 0x10000
      · exact @hwide 25 2 (by decide) (by omega) h₃
          (by rw [head, if_neg h₁, if_neg h₂, if_pos h₃])
      · by_cases h₄ : n < 0x100000000
        · exact @hwide 26 4 (by decide) (by omega) h₄
            (by rw [head, if_neg h₁, if_neg h₂, if_neg h₃, if_pos h₄])
        · exact @hwide 27 8 (by decide) (by omega) hn
            (by rw [head, if_neg h₁, if_neg h₂, if_neg h₃, if_neg h₄])

theorem item_headed {major n depth : Nat} {inner bs : List UInt8} (hmajor : major < 7)
    (h : headed? major n inner = some bs) (rest : List UInt8) :
    item (depth + 1) (bs ++ rest) = content depth (item depth) major (some n) (inner ++ rest) := by
  rw [headed?] at h
  split at h
  · next hn =>
    cases h
    obtain ⟨b, tail, hhead, hb, hargument⟩ :=
      head_read (Nat.lt_succ_of_lt hmajor) hn (inner ++ rest)
    have hseven : b.toNat / 32 ≠ 7 := by omega
    rw [hhead, List.append_assoc, List.cons_append, item, if_neg hseven, hargument, hb]
    rfl
  · cases h

end Cbor

/-! ## Texts -/

namespace Value

def text? : Value → Option String
  | text s => some s
  | _ => none

def textsOf (entry : Value × Value) : Option String × Option String :=
  (entry.1.text?, entry.2.text?)

/-- The second value has the texts of the first one, and its entries if it is a map. -/
structure Copies (v w : Value) : Prop where
  text : w.text? = v.text?
  isMap : w.isMap = v.isMap
  entries : ∀ entries, v = .map entries → ∃ copies, w = .ofEntries copies ∧
    copies.map textsOf = entries.map textsOf

/-- Neither of the values is a text or a map. -/
theorem Copies.other {v w : Value} (hv : v.text? = none ∧ v.isMap = false)
    (hw : w.text? = none ∧ w.isMap = false) : Copies v w := by
  refine ⟨hw.1.trans hv.1.symm, hw.2.trans hv.2.symm, fun entries hentries => ?_⟩
  rw [hentries] at hv
  cases hv.2

end Value

namespace Cbor

open Text
open Value (Copies textsOf)

/-- Whatever is read of a payload ends where the payload ends and copies the value. -/
def Reads (v : Value) (bs : List UInt8) : Prop :=
  ∀ depth rest w rest', item depth (bs ++ rest) = some (w, rest') → rest' = rest ∧ Copies v w

variable {v : Value} {bs inner : List UInt8} {n : Nat}

theorem reads_headed {major : Nat} (hmajor : major < 7) (h : headed? major n inner = some bs)
    (hcontent : ∀ depth rest w rest',
      content depth (item depth) major (some n) (inner ++ rest) = some (w, rest') →
      rest' = rest ∧ Copies v w) : Reads v bs := by
  intro depth rest w rest' hread
  cases depth with
  | zero => cases hread
  | succ depth =>
    rw [item_headed hmajor h] at hread
    exact hcontent depth rest w rest' hread

theorem reads_special {b : UInt8} (hb : b.toNat / 32 = 7)
    (hspecial : ∀ rest w rest', special (b.toNat % 32) (inner ++ rest) = some (w, rest') →
      rest' = rest ∧ Copies v w) : Reads v (b :: inner) := by
  intro depth rest w rest' hread
  cases depth with
  | zero => cases hread
  | succ depth =>
    rw [List.cons_append, item, if_pos hb] at hread
    exact hspecial rest w rest' hread

theorem takeBytes_map {α : Type} {f : List UInt8 × List UInt8 → α × List UInt8}
    (hinner : inner.length = n) (rest : List UInt8) :
    (takeBytes n (inner ++ rest)).map f = some (f (inner, rest)) := by
  rw [takeBytes_append hinner, Option.map_some]

def specialWidth : Nat → Nat
  | 24 => 1
  | 25 => 2
  | 26 => 4
  | 27 => 8
  | _ => 0

theorem specialWidth_of_lt {low : Nat} (h : low < 24) : specialWidth low = 0 := by
  unfold specialWidth
  split <;> omega

/-- Simple values and numbers are no texts and no maps. -/
theorem special_other {low : Nat} (hinner : inner.length = specialWidth low) {rest : List UInt8}
    {w : Value} {rest' : List UInt8} (h : special low (inner ++ rest) = some (w, rest')) :
    rest' = rest ∧ w.text? = none ∧ w.isMap = false := by
  unfold special at h
  dsimp only at h
  split at h
  iterate 4
    obtain rfl := List.length_eq_zero_iff.mp hinner
    cases h
    exact ⟨rfl, rfl, rfl⟩
  · rw [specialWidth] at hinner
    rw [takeBytes_append hinner] at h
    change (if ofBigEndian inner < 32 then none else some (Value.simple _, rest)) = _ at h
    split at h
    · cases h
    · cases h
      exact ⟨rfl, rfl, rfl⟩
  iterate 3
    rw [specialWidth] at hinner
    rw [takeBytes_map hinner] at h
    cases h
    exact ⟨rfl, rfl, rfl⟩
  · split at h
    · next hlow =>
      rw [specialWidth_of_lt (Nat.lt_trans hlow (by decide))] at hinner
      obtain rfl := List.length_eq_zero_iff.mp hinner
      cases h
      exact ⟨rfl, rfl, rfl⟩
    · cases h

theorem reads_plain {b : UInt8} (hb : b.toNat / 32 = 7)
    (hinner : inner.length = specialWidth (b.toNat % 32)) (hv : v.text? = none ∧ v.isMap = false) :
    Reads v (b :: inner) := by
  apply reads_special hb
  intro rest w rest' h
  obtain ⟨hrest, hw⟩ := special_other hinner h
  exact ⟨hrest, .other hv hw⟩

theorem reads_simple {bs : List UInt8} (h : encode? (.simple n) = some bs) :
    Reads (.simple n) bs := by
  simp only [encode?, Option.some.injEq] at h
  subst h
  split
  · next hn =>
    have hfirst : (UInt8.ofNat (0xe0 + n)).toNat = 0xe0 + n := by
      rw [UInt8.toNat_ofNat']
      omega
    have hlow : (0xe0 + n) % 32 = n := by omega
    refine reads_plain (by rw [hfirst]; omega) ?_ ⟨rfl, rfl⟩
    rw [hfirst, hlow, specialWidth_of_lt hn]
    rfl
  · exact reads_plain (by decide) rfl ⟨rfl, rfl⟩

theorem reads_double (x : Double) : Reads (.real x) (encodeDouble x) := by
  unfold encodeDouble
  split
  · exact reads_plain (by decide) rfl ⟨rfl, rfl⟩
  · split
    · exact reads_plain (by decide) rfl ⟨rfl, rfl⟩
    · exact reads_plain (by decide) (length_bigEndian 8 _) ⟨rfl, rfl⟩

theorem reads_bytes {bytes bs : List UInt8} (h : encodeBytes? bytes = some bs) :
    Reads (.bytes bytes) bs := by
  apply reads_headed (by decide) h
  intro depth rest w rest' hread
  change ((takeBytes bytes.length (bytes ++ rest)).map _ >>= _) = _ at hread
  rw [takeBytes_map rfl] at hread
  cases hread
  exact ⟨rfl, .other ⟨rfl, rfl⟩ ⟨rfl, rfl⟩⟩

theorem reads_text {s : String} {bs : List UInt8} (h : encode? (.text s) = some bs) :
    Reads (.text s) bs := by
  simp only [encode?] at h
  apply reads_headed (by decide) h
  intro depth rest w rest' hread
  change ((takeBytes (utf8 s).length (utf8 s ++ rest)).map _ >>= _) = _ at hread
  rw [takeBytes_map rfl] at hread
  change (([utf8 s].mapM ofUtf8?) >>= fun texts => some (Value.text (String.join texts), rest)) = _
    at hread
  rw [List.mapM_cons, ofUtf8?_utf8] at hread
  cases hread
  have hjoin : String.join [s] = s := by
    rw [String.join_cons, String.join_nil, String.append_empty]
  refine ⟨rfl, congrArg some hjoin, rfl, fun entries hentries => ?_⟩
  cases hentries

/-- What a tag is put on is no text and no map. -/
theorem ofTag_other {tag : Nat} {inner w : Value} (h : ofTag tag inner = some w) :
    w.text? = none ∧ w.isMap = false := by
  unfold ofTag at h
  split at h <;> cases h <;> exact ⟨rfl, rfl⟩

theorem reads_tagged {tag : Nat} {u : Value} (hinner : Reads u inner)
    (h : headed? 6 tag inner = some bs) (hv : v.text? = none ∧ v.isMap = false) : Reads v bs := by
  apply reads_headed (by decide) h
  intro depth rest w rest' hread
  change (item depth (inner ++ rest) >>= fun p => ofTag tag p.1 >>= fun w => some (w, p.2)) = _
    at hread
  rw [Option.bind_eq_bind, Option.bind_eq_some_iff] at hread
  obtain ⟨⟨content, rest''⟩, hcontent, htag⟩ := hread
  rw [Option.bind_eq_bind, Option.bind_eq_some_iff] at htag
  obtain ⟨w', htag, hw⟩ := htag
  cases hw
  exact ⟨(hinner depth rest content rest'' hcontent).1, .other hv (ofTag_other htag)⟩

theorem reads_nat {major tag : Nat} (hmajor : major = 0 ∨ major = 1)
    (h : encodeNat? major tag n = some bs) (hv : v.text? = none ∧ v.isMap = false) :
    Reads v bs := by
  rw [encodeNat?] at h
  cases hhead : headed? major n [] with
  | some short =>
    rw [hhead] at h
    cases h
    apply reads_headed (by omega) hhead
    intro depth rest w rest' hread
    rcases hmajor with rfl | rfl <;> cases hread <;> exact ⟨rfl, .other hv ⟨rfl, rfl⟩⟩
  | none =>
    rw [hhead] at h
    change (encodeBytes? _).bind _ = _ at h
    obtain ⟨long, hlong, htagged⟩ := Option.bind_eq_some_iff.mp h
    exact reads_tagged (reads_bytes hlong) htagged hv

/-- Items that are read one after the other. -/
theorem times_cons {α : Type} {part : Read α} {input rest' : List UInt8} {as : List α}
    (h : times part (n + 1) input = some (as, rest')) :
    ∃ a rest others, part input = some (a, rest) ∧ times part n rest = some (others, rest') ∧
      as = a :: others := by
  rw [times, Option.bind_eq_bind, Option.bind_eq_some_iff] at h
  obtain ⟨⟨a, rest⟩, ha, h⟩ := h
  dsimp only at h
  rw [Option.bind_eq_bind, Option.bind_eq_some_iff] at h
  obtain ⟨⟨others, rest''⟩, hothers, h⟩ := h
  cases h
  exact ⟨a, rest, others, ha, hothers, rfl⟩

theorem entry_read {part : Read Value} {input rest : List UInt8} {e : Value × Value}
    (h : entry part input = some (e, rest)) :
    ∃ middle, part input = some (e.1, middle) ∧ part middle = some (e.2, rest) := by
  rw [entry, Option.bind_eq_bind, Option.bind_eq_some_iff] at h
  obtain ⟨⟨k, middle⟩, hk, h⟩ := h
  obtain ⟨⟨v, rest'⟩, hv, h⟩ := Option.bind_eq_some_iff.mp h
  cases h
  exact ⟨middle, hk, hv⟩

/-- Two payloads one after the other. -/
theorem append_payloads {first second : Option (List UInt8)}
    (h : (do return (← first) ++ (← second)) = some bs) :
    ∃ bs₁ bs₂, first = some bs₁ ∧ second = some bs₂ ∧ bs = bs₁ ++ bs₂ := by
  cases first with
  | none => cases h
  | some bs₁ =>
    cases second with
    | none => cases h
    | some bs₂ =>
      cases h
      exact ⟨bs₁, bs₂, rfl, rfl, rfl⟩

mutual

/-- Whatever is read of the payload of a value copies it. -/
theorem reads_value : (v : Value) → {bs : List UInt8} → encode? v = some bs → Reads v bs
  | .null, _, h => by
    cases h
    exact reads_plain (by decide) rfl ⟨rfl, rfl⟩
  | .bool b, _, h => by
    cases h
    cases b <;> exact reads_plain (by decide) rfl ⟨rfl, rfl⟩
  | .undefined, _, h => by
    cases h
    exact reads_plain (by decide) rfl ⟨rfl, rfl⟩
  | .simple _, _, h => reads_simple h
  | .real x, _, h => by
    cases h
    exact reads_double x
  | .int (.ofNat _), _, h => reads_nat (.inl rfl) h ⟨rfl, rfl⟩
  | .int (.negSucc _), _, h => reads_nat (.inr rfl) h ⟨rfl, rfl⟩
  | .text _, _, h => reads_text h
  | .bytes _, _, h => reads_bytes h
  | .list items, _, h => by
    simp only [encode?] at h
    obtain ⟨inner, hinner, h⟩ := Option.bind_eq_some_iff.mp h
    apply reads_headed (by decide) h
    intro depth rest w rest' hread
    change (times (item depth) items.length (inner ++ rest) >>= fun p =>
      some (Value.list p.1, p.2)) = _ at hread
    rw [Option.bind_eq_bind, Option.bind_eq_some_iff] at hread
    obtain ⟨⟨copies, rest''⟩, hcopies, hread⟩ := hread
    cases hread
    exact ⟨reads_items items hinner depth rest copies rest'' hcopies,
      .other ⟨rfl, rfl⟩ ⟨rfl, rfl⟩⟩
  | .map entries, _, h => by
    simp only [encode?] at h
    obtain ⟨inner, hinner, h⟩ := Option.bind_eq_some_iff.mp h
    apply reads_headed (by decide) h
    intro depth rest w rest' hread
    change (times (entry (item depth)) entries.length (inner ++ rest) >>= fun p =>
      some (Value.ofEntries p.1, p.2)) = _ at hread
    rw [Option.bind_eq_bind, Option.bind_eq_some_iff] at hread
    obtain ⟨⟨copies, rest''⟩, hcopies, hread⟩ := hread
    cases hread
    obtain ⟨hrest, htexts⟩ := reads_entries entries hinner depth rest copies rest'' hcopies
    refine ⟨hrest, rfl, rfl, fun entries' hentries => ?_⟩
    cases hentries
    exact ⟨copies, rfl, htexts⟩
  | .tagged _ inner, _, h => by
    simp only [encode?] at h
    obtain ⟨bs, hinner, h⟩ := Option.bind_eq_some_iff.mp h
    exact reads_tagged (reads_value inner hinner) h ⟨rfl, rfl⟩
  | .member .., _, h | .levels .., _, h | .event .., _, h | .foreign, _, h => by
    simp only [encode?] at h
    cases h

-- What follows a payload stays open in all four statements, since the payload of an item is
-- followed by those of the items after it.
theorem reads_items : (vs : List Value) → {bs : List UInt8} → encodeItems? vs = some bs →
    ∀ depth rest copies rest', times (item depth) vs.length (bs ++ rest) = some (copies, rest') →
    rest' = rest
  | [], _, h, _, _, _, _, hread => by
    cases h
    cases hread
    rfl
  | v :: vs, _, h, depth, rest, _, rest', hread => by
    obtain ⟨bs₁, bs₂, hfirst, hothers, rfl⟩ := append_payloads h
    rw [List.append_assoc] at hread
    obtain ⟨_, middle, others, hv, hvs, -⟩ := times_cons hread
    obtain ⟨rfl, -⟩ := reads_value v hfirst depth _ _ _ hv
    exact reads_items vs hothers depth rest others rest' hvs

theorem reads_entries : (es : List (Value × Value)) → {bs : List UInt8} →
    encodeEntries? es = some bs →
    ∀ depth rest copies rest',
    times (entry (item depth)) es.length (bs ++ rest) = some (copies, rest') →
    rest' = rest ∧ copies.map textsOf = es.map textsOf
  | [], _, h, _, _, _, _, hread => by
    cases h
    cases hread
    exact ⟨rfl, rfl⟩
  | e :: es, _, h, depth, rest, _, rest', hread => by
    obtain ⟨bs₁, bs₂, hfirst, hothers, rfl⟩ := append_payloads h
    rw [List.append_assoc] at hread
    obtain ⟨copy, middle, others, he, hes, rfl⟩ := times_cons hread
    obtain ⟨rfl, hcopy⟩ := reads_entry e hfirst depth _ _ _ he
    obtain ⟨hrest, htexts⟩ := reads_entries es hothers depth rest others rest' hes
    exact ⟨hrest, by rw [List.map_cons, List.map_cons, hcopy, htexts]⟩

theorem reads_entry : (e : Value × Value) → {bs : List UInt8} → encodeEntry? e = some bs →
    ∀ depth rest copy rest', entry (item depth) (bs ++ rest) = some (copy, rest') →
    rest' = rest ∧ textsOf copy = textsOf e
  | (k, v), _, h, depth, rest, _, _, hread => by
    obtain ⟨bs₁, bs₂, hk, hv, rfl⟩ := append_payloads h
    rw [List.append_assoc] at hread
    obtain ⟨middle, hreadk, hreadv⟩ := entry_read hread
    obtain ⟨rfl, hcopyk⟩ := reads_value k hk depth _ _ _ hreadk
    obtain ⟨hrest, hcopyv⟩ := reads_value v hv depth rest _ _ hreadv
    exact ⟨hrest, Prod.ext hcopyk.text hcopyv.text⟩

end

end Cbor

/-! ## Maps -/

namespace Value

@[simp] theorem text?_text (s : String) : (text s).text? = some s := rfl

theorem text?_eq_some {v : Value} {s : String} : v.text? = some s ↔ v = .text s := by
  cases v <;> simp [text?]

theorem same_text_iff (v : Value) (s : String) : v.same (.text s) = true ↔ v.text? = some s := by
  cases v <;> simp [same, sameScalar, wholeNumber?, text?]

theorem text_same_iff (s : String) (v : Value) : (text s).same v = true ↔ v.text? = some s := by
  cases v with
  | text t =>
    simp only [same, sameScalar, text?_text, beq_iff_eq, Option.some.injEq]
    exact eq_comm
  | _ => simp [same, sameScalar, wholeNumber?, text?]

theorem lookup?_cons (key : String) (k v : Value) (entries : List (Value × Value)) :
    lookup? key ((k, v) :: entries) =
      if k.text? = some key then some v else lookup? key entries := by
  cases k with
  | text k => simp only [lookup?, text?_text, Option.some.injEq]
  | _ => rfl

/-- A name is found if and only if it is a key. -/
theorem lookup?_isSome_iff {name : String} {entries : List (Value × Value)} :
    (lookup? name entries).isSome ↔ text name ∈ entries.map (·.1) := by
  induction entries with
  | nil => simp [lookup?]
  | cons e entries ih =>
    obtain ⟨k, v⟩ := e
    rw [lookup?_cons, List.map_cons, List.mem_cons]
    by_cases hk : k.text? = some name
    · simp [text?_eq_some.mp hk]
    · have hne : text name ≠ k := fun h => hk (text?_eq_some.mpr h.symm)
      simp [hk, hne, ih]

/-- A record has nothing under what is none of its names. -/
theorem field?_record_of_notMem {key : String} {fields : List (String × Value)}
    (h : key ∉ fields.map (·.1)) : (record fields).field? key = .ok none := by
  have hnone : ¬ (lookup? key (fields.map fun f => (text f.1, f.2))).isSome := by
    rw [lookup?_isSome_iff, List.map_map]
    intro hmem
    obtain ⟨f, hf, hkey⟩ := List.mem_map.mp hmem
    cases hkey
    exact h (List.mem_map_of_mem hf)
  exact congrArg Except.ok (Option.not_isSome_iff_eq_none.mp hnone)

theorem lookup?_append (key : String) (entries more : List (Value × Value)) :
    lookup? key (entries ++ more) = (lookup? key entries).or (lookup? key more) := by
  induction entries with
  | nil => rfl
  | cons e entries ih =>
    obtain ⟨k, v⟩ := e
    rw [List.cons_append, lookup?_cons, lookup?_cons, ih]
    split <;> rfl

/-- A value that is entered under a key is found there, and nowhere else. -/
theorem lookup?_put (key : String) (k v : Value) (entries : List (Value × Value)) :
    lookup? key (put k v entries) =
      if k.text? = some key then some v else lookup? key entries := by
  induction entries with
  | nil => exact lookup?_cons key k v []
  | cons e entries ih =>
    obtain ⟨l, w⟩ := e
    rw [put]
    by_cases hsame : l.same k
    · have hkeys : l.text? = some key ↔ k.text? = some key := by
        constructor
        · intro hl
          rw [text?_eq_some.mp hl] at hsame
          exact (text_same_iff key k).mp hsame
        · intro hk
          rw [text?_eq_some.mp hk] at hsame
          exact (same_text_iff l key).mp hsame
      simp only [if_pos hsame, lookup?_cons, hkeys]
      split <;> rfl
    · rw [if_neg hsame, lookup?_cons, lookup?_cons, ih]
      by_cases hl : l.text? = some key
      · have hk : k.text? ≠ some key := by
          intro hk
          rw [text?_eq_some.mp hk] at hsame
          exact hsame ((same_text_iff l key).mpr hl)
        rw [if_pos hl, if_neg hk, if_pos hl]
      · rw [if_neg hl, if_neg hl]

/-- In a map that is made of entries the last one with a key counts. -/
theorem lookup?_ofEntries (key : String) (entries : List (Value × Value)) :
    (ofEntries entries).field key = .ok ((lookup? key entries.reverse).getD .null) := by
  have hfold (made : List (Value × Value)) :
      lookup? key (entries.foldl (fun es e => put e.1 e.2 es) made) =
        (lookup? key entries.reverse).or (lookup? key made) := by
    induction entries generalizing made with
    | nil => rfl
    | cons e entries ih =>
      obtain ⟨k, v⟩ := e
      rw [List.foldl_cons, ih, lookup?_put, List.reverse_cons, lookup?_append, lookup?_cons,
        Option.or_assoc]
      split <;> rfl
  have hmade := hfold []
  rw [lookup?, Option.or_none] at hmade
  change (map (entries.foldl (fun es e => put e.1 e.2 es) [])).field key = _
  rw [field_map, hmade]

/-- Where texts are alike, the same texts are found. -/
theorem text?_lookup? {key : String} {entries copies : List (Value × Value)}
    (h : copies.map textsOf = entries.map textsOf) :
    ((lookup? key copies).getD .null).text? = ((lookup? key entries).getD .null).text? := by
  induction entries generalizing copies with
  | nil =>
    rw [List.map_nil, List.map_eq_nil_iff] at h
    rw [h]
  | cons e entries ih =>
    obtain ⟨copy, rest, rfl, hcopy, hrest⟩ := List.map_eq_cons_iff.mp h
    obtain ⟨k, v⟩ := e
    obtain ⟨k', v'⟩ := copy
    obtain ⟨hkey, hvalue⟩ := Prod.mk.inj hcopy
    rw [lookup?_cons, lookup?_cons, hkey]
    split
    · exact hvalue
    · exact ih hrest

end Value

/-! ## Content -/

/-- A copy was read from the payload of what is sent, and it is a map. -/
theorem Content.clone_stages {content copy : Value} (h : clone content = .ok copy) :
    ∃ body bytes rest, ofRecord content = .ok body ∧ Cbor.encode? body = some bytes ∧
      Cbor.item (Cbor.depthLimit + 1) (bytes ++ []) = some (copy, rest) ∧ copy.isMap := by
  obtain ⟨body, hbody, h⟩ := bind_eq_ok h
  obtain ⟨bytes, hencode, h⟩ := bind_eq_ok h
  obtain ⟨w, hdecode, h⟩ := bind_eq_ok h
  have hbytes : Cbor.encode? body = some bytes := by
    rw [Cbor.encode] at hencode
    cases hpayload : Cbor.encode? body with
    | none => rw [hpayload] at hencode; cases hencode
    | some _ => rw [hpayload] at hencode; cases hencode; rfl
  split at h
  · next hmap =>
    cases h
    rw [Cbor.decode] at hdecode
    split at hdecode
    · next hitem =>
      cases hdecode
      exact ⟨body, bytes, _, hbody, hbytes, (List.append_nil bytes).symm ▸ hitem, hmap⟩
    · cases hdecode
  · cases h

/-- Content that has a copy is a map, and so is the copy. Of the entries with a key the last one
counts, and if its value is a text it is the same in the copy. -/
theorem Content.clone_texts {content copy : Value} (h : clone content = .ok copy) :
    ∃ entries, ofRecord content = .ok (.map entries) ∧ ∀ key, ∃ v, copy.field key = .ok v ∧
      v.text? = ((Value.lookup? key entries.reverse).getD .null).text? := by
  obtain ⟨body, bytes, rest, hbody, hbytes, hread, hmap⟩ := clone_stages h
  obtain ⟨-, -, hismap, hentries⟩ := Cbor.reads_value body hbytes _ _ _ _ hread
  rw [hmap] at hismap
  cases body with
  | map entries =>
    obtain ⟨copies, rfl, htexts⟩ := hentries entries rfl
    refine ⟨entries, hbody, fun key => ⟨_, Value.lookup?_ofEntries key copies, ?_⟩⟩
    refine Value.text?_lookup? ?_
    rw [List.map_reverse, List.map_reverse, htexts]
  | _ => cases hismap

end VirtualUsers
