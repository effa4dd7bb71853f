import VirtualUsers.Proofs.Payloads
/-!
# Copies of JSON

What is read from the payload of a JSON value is the value: texts, whole numbers of any size and
doubles come back as they were, lists and maps part by part. Only what is no number comes back in
one form, whatever its bits were.
-/

namespace VirtualUsers

def Double.kept (x : Double) : Double :=
  if x.isNaN then nan else x

namespace Value

mutual

def kept : Value → Value
  | real x => real x.kept
  | list items => list (keptItems items)
  | map entries => map (keptEntries entries)
  | v => v

def keptItems : List Value → List Value
  | [] => []
  | v :: rest => kept v :: keptItems rest

def keptEntries : List (Value × Value) → List (Value × Value)
  | [] => []
  | e :: rest => keptEntry e :: keptEntries rest

def keptEntry : Value × Value → Value × Value
  | (k, v) => (k, kept v)

end

@[simp] theorem kept_int (n : Int) : (int n).kept = int n := rfl

@[simp] theorem kept_text (s : String) : (text s).kept = text s := rfl

@[simp] theorem kept_real (x : Double) : (real x).kept = real x.kept := rfl

@[simp] theorem kept_map (entries : List (Value × Value)) :
    (map entries).kept = map (keptEntries entries) := rfl

theorem keptItems_eq (items : List Value) : keptItems items = items.map kept := by
  induction items with
  | nil => rfl
  | cons v rest ih => rw [keptItems, ih, List.map_cons]

theorem keptEntries_record (fields : List (String × Value)) :
    keptEntries (fields.map fun (k, v) => (text k, v)) =
      fields.map fun (k, v) => (text k, v.kept) := by
  induction fields with
  | nil => rfl
  | cons f rest ih => rw [List.map_cons, keptEntries, ih, List.map_cons, keptEntry]

theorem kept_record (fields : List (String × Value)) :
    (record fields).kept = record (fields.map fun (k, v) => (k, v.kept)) := by
  rw [record, kept_map, keptEntries_record, record, List.map_map]
  rfl

end Value

namespace Cbor

open Text

def magnitude : Int → Nat
  | .ofNat n => n
  | .negSucc n => n

def Short (n : Nat) : Prop :=
  n < Nat.pow 2 64

instance (n : Nat) : Decidable (Short n) :=
  inferInstanceAs (Decidable (n < Nat.pow 2 64))

/-- The value is JSON that is nested at most as deep as given. A whole number of more than eight
bytes is nested too, as a byte string with a tag. -/
inductive Fits : Nat → Value → Prop
  | null {depth : Nat} : Fits depth .null
  | bool {depth : Nat} (b : Bool) : Fits depth (.bool b)
  | int {depth : Nat} (n : Int) (h : Short (magnitude n)) : Fits depth (.int n)
  | large {depth : Nat} (n : Int) (h : Short (byteLength (magnitude n))) : Fits (depth + 1) (.int n)
  | real {depth : Nat} (x : Double) : Fits depth (.real x)
  | text {depth : Nat} (s : String) (h : Short (utf8 s).length) : Fits depth (.text s)
  | noItems {depth : Nat} : Fits depth (.list [])
  | list {depth : Nat} (items : List Value) (h : Short items.length)
      (hitems : ∀ v ∈ items, Fits depth v) : Fits (depth + 1) (.list items)
  | noEntries {depth : Nat} : Fits depth (.map [])
  | map {depth : Nat} (fields : List (String × Value)) (h : Short fields.length)
      (hdistinct : (fields.map (·.1)).Nodup) (hkeys : ∀ f ∈ fields, Short (utf8 f.1).length)
      (hvalues : ∀ f ∈ fields, Fits depth f.2) : Fits (depth + 1) (.record fields)

def Returns (depth : Nat) (v : Value) : Prop :=
  ∃ bs, encode? v = some bs ∧ ∀ rest, item (depth + 1) (bs ++ rest) = some (v.kept, rest)

variable {depth major n : Nat} {inner : List UInt8} {v : Value}

/-! ## Scalars -/

theorem headed?_short (h : Short n) : headed? major n inner = some (head major n ++ inner) :=
  if_pos h

theorem item_head (hmajor : major < 7) (h : Short n) (rest : List UInt8) :
    item (depth + 1) (head major n ++ inner ++ rest) =
      content depth (item depth) major (some n) (inner ++ rest) :=
  item_headed hmajor (headed?_short h) rest

/-- An item whose payload has a head. -/
theorem returns_headed (hmajor : major < 7) (h : Short n)
    (hpayload : encode? v = some (head major n ++ inner))
    (hcontent : ∀ rest, content depth (item depth) major (some n) (inner ++ rest) =
      some (v.kept, rest)) : Returns depth v :=
  ⟨_, hpayload, fun rest => (item_head hmajor h rest).trans (hcontent rest)⟩

theorem encodeNat?_short {tag : Nat} (h : Short n) :
    encodeNat? major tag n = some (head major n ++ []) := by
  rw [encodeNat?, headed?_short h]
  rfl

theorem returns_int {n : Int} (h : Short (magnitude n)) : Returns depth (.int n) := by
  cases n with
  | ofNat n =>
    have hpayload : encode? (.int (.ofNat n)) = some (head 0 n ++ []) := encodeNat?_short h
    exact returns_headed (by decide) h hpayload fun rest => rfl
  | negSucc n =>
    have hpayload : encode? (.int (.negSucc n)) = some (head 1 n ++ []) := encodeNat?_short h
    refine returns_headed (by decide) h hpayload fun rest => ?_
    change some (Value.int (-1 - (n : Int)), rest) = _
    rw [Value.kept_int, Int.negSucc_eq, Int.neg_add, Int.add_comm, Int.sub_eq_add_neg]

/-- A number takes no more bytes than it is given. -/
theorem lt_byteLength (n : Nat) : n < Nat.pow 256 (byteLength n) := by
  rw [byteLength]
  split
  · next h =>
    rw [h]
    exact Nat.one_pos
  · next h =>
    calc n < 2 ^ (n.log2 + 1) := Nat.lt_log2_self
      _ ≤ 2 ^ (8 * (n.log2 / 8 + 1)) := Nat.pow_le_pow_right (by decide) (by omega)
      _ = 256 ^ (n.log2 / 8 + 1) := by rw [Nat.pow_mul]

theorem item_bytes {bytes : List UInt8} (hlength : bytes.length = n) (h : Short n)
    (rest : List UInt8) :
    item (depth + 1) (head 2 n ++ bytes ++ rest) = some (.bytes bytes, rest) := by
  rw [item_head (by decide) h]
  change ((takeBytes n (bytes ++ rest)).map _ >>= _) = _
  rw [takeBytes_map hlength]
  change some (Value.bytes [bytes].flatten, rest) = _
  rw [List.flatten_singleton]

/-- A number of more than eight bytes under its tag. -/
theorem item_tagged {tag : Nat} {w : Value} (htag : Short tag)
    (hshort : Short (byteLength n)) (hw : ofTag tag (.bytes (bigEndian (byteLength n) n)) = some w)
    (rest : List UInt8) :
    item (depth + 2) (head 6 tag ++ (head 2 (byteLength n) ++ bigEndian (byteLength n) n) ++ rest) =
      some (w, rest) := by
  rw [item_head (by decide) htag]
  change (item (depth + 1) _ >>= fun p => ofTag tag p.1 >>= fun w => some (w, p.2)) = _
  rw [item_bytes (length_bigEndian _ n) hshort]
  change (ofTag tag _ >>= fun w => some (w, rest)) = _
  rw [hw]
  rfl

theorem encodeNat?_large {tag : Nat} (h : ¬ Short n) (hshort : Short (byteLength n))
    (htag : Short tag) : encodeNat? major tag n =
      some (head 6 tag ++ (head 2 (byteLength n) ++ bigEndian (byteLength n) n)) := by
  have hnone : headed? major n [] = none := if_neg h
  have hbytes : encodeBytes? (bigEndian (byteLength n) n) =
      some (head 2 (byteLength n) ++ bigEndian (byteLength n) n) := by
    rw [encodeBytes?, length_bigEndian, headed?_short hshort]
  rw [encodeNat?, hnone, hbytes]
  exact headed?_short htag

theorem returns_large {n : Int} (hshort : Short (byteLength (magnitude n))) :
    Returns (depth + 1) (.int n) := by
  by_cases h : Short (magnitude n)
  · exact returns_int h
  · cases n with
    | ofNat n =>
      refine ⟨_, encodeNat?_large h hshort (by decide), item_tagged (by decide) hshort ?_⟩
      rw [ofTag, ofBigEndian_bigEndian (lt_byteLength n)]
      rfl
    | negSucc n =>
      refine ⟨_, encodeNat?_large h hshort (by decide), item_tagged (by decide) hshort ?_⟩
      have hvalue : Int.negSucc n = -1 - (n : Int) := by omega
      rw [ofTag, ofBigEndian_bigEndian (lt_byteLength n), Value.kept_int, hvalue]

theorem returns_text {s : String} (h : Short (utf8 s).length) : Returns depth (.text s) := by
  have hpayload : encode? (.text s) = some (head 3 (utf8 s).length ++ utf8 s) := by
    rw [encode?, headed?_short h]
  refine returns_headed (by decide) h hpayload fun rest => ?_
  change ((takeBytes (utf8 s).length (utf8 s ++ rest)).map _ >>= _) = _
  rw [takeBytes_map rfl]
  change (([utf8 s].mapM ofUtf8?) >>= fun texts => some (Value.text (String.join texts), rest)) = _
  have hjoin : String.join [s] = s := by
    rw [String.join_cons, String.join_nil, String.append_empty]
  rw [List.mapM_cons, ofUtf8?_utf8]
  change some (Value.text (String.join [s]), rest) = _
  rw [hjoin, Value.kept_text]

/-- An infinite number is told by its sign. -/
theorem eq_infinity {x : Double} (h : x.isInfinite) : x = .infinity x.negative := by
  obtain ⟨bits⟩ := x
  simp only [Double.isInfinite, Double.exponentBits, Double.fractionBits, Bool.and_eq_true,
    beq_iff_eq] at h
  have hlt : bits.toNat < 2 ^ 64 := bits.toNat_lt
  have hbits : bits.toNat = Double.infiniteMagnitude +
      if (Double.mk bits).negative then Nat.pow 2 63 else 0 := by
    simp only [Double.infiniteMagnitude, Double.negative, decide_eq_true_eq]
    simp only [Nat.pow_eq, Nat.reducePow] at *
    split <;> omega
  rw [Double.infinity, Double.ofMagnitude, ← hbits, UInt64.ofNat_toNat]

theorem item_special {b : UInt8} (hb : b.toNat / 32 = 7) (bs : List UInt8) :
    item (depth + 1) (b :: bs) = special (b.toNat % 32) bs := by
  rw [item, if_pos hb]

/-- A number of two bytes. -/
theorem item_half {bytes : List UInt8} (h : bytes.length = 2) (rest : List UInt8) :
    item (depth + 1) (0xf9 :: bytes ++ rest) =
      some (.real (widen 5 10 (ofBigEndian bytes)), rest) := by
  rw [List.cons_append, item_special (by decide)]
  exact takeBytes_map h rest

theorem item_double {bytes : List UInt8} (h : bytes.length = 8) (rest : List UInt8) :
    item (depth + 1) (0xfb :: bytes ++ rest) =
      some (.real ⟨UInt64.ofNat (ofBigEndian bytes)⟩, rest) := by
  rw [List.cons_append, item_special (by decide)]
  exact takeBytes_map h rest

theorem widen_nan : widen 5 10 (ofBigEndian [0x7e, 0x00]) = .nan := by
  decide +kernel

theorem widen_infinity (negative : Bool) :
    widen 5 10 (ofBigEndian [if negative then 0xfc else 0x7c, 0x00]) = .infinity negative := by
  cases negative <;> decide +kernel

theorem returns_real (x : Double) : Returns depth (.real x) := by
  refine ⟨_, rfl, fun rest => ?_⟩
  rw [encodeDouble, Value.kept_real, Double.kept]
  split
  · rw [item_half rfl, widen_nan]
  · split
    · next hinfinite => rw [item_half rfl, widen_infinity, ← eq_infinity hinfinite]
    · have hlt : x.bits.toNat < Nat.pow 256 8 := x.bits.toNat_lt
      rw [item_double (length_bigEndian 8 _), ofBigEndian_bigEndian hlt, UInt64.ofNat_toNat]

/-! ## Lists and maps -/

theorem returns_items {items : List Value} (h : ∀ v ∈ items, Returns depth v) :
    ∃ bs, encodeItems? items = some bs ∧ ∀ rest,
      times (item (depth + 1)) items.length (bs ++ rest) = some (items.map Value.kept, rest) := by
  induction items with
  | nil => exact ⟨[], rfl, fun rest => rfl⟩
  | cons v items ih =>
    obtain ⟨bs₁, hfirst, hread⟩ := h v List.mem_cons_self
    obtain ⟨bs₂, hothers, hreads⟩ := ih fun w hw => h w (List.mem_cons_of_mem v hw)
    refine ⟨bs₁ ++ bs₂, ?_, fun rest => ?_⟩
    · rw [encodeItems?, hfirst, hothers]
      rfl
    · rw [List.length_cons, times, List.append_assoc, hread]
      change (times _ items.length (bs₂ ++ rest) >>= _) = _
      rw [hreads]
      rfl

theorem returns_list {items : List Value} (hshort : Short items.length)
    (h : ∀ v ∈ items, Returns depth v) : Returns (depth + 1) (.list items) := by
  obtain ⟨bs, hbs, hread⟩ := returns_items h
  have hpayload : encode? (.list items) = some (head 4 items.length ++ bs) := by
    rw [encode?, hbs]
    exact headed?_short hshort
  refine returns_headed (by decide) hshort hpayload fun rest => ?_
  change (times (item (depth + 1)) items.length (bs ++ rest) >>= fun p =>
    some (Value.list p.1, p.2)) = _
  rw [hread, Value.kept, Value.keptItems_eq]
  rfl

theorem returns_entry {k : String} (hk : Returns depth (.text k)) (hv : Returns depth v) :
    ∃ bs, encodeEntry? (.text k, v) = some bs ∧ ∀ rest,
      entry (item (depth + 1)) (bs ++ rest) = some ((.text k, v.kept), rest) := by
  obtain ⟨bs₁, hkey, hreadk⟩ := hk
  obtain ⟨bs₂, hvalue, hreadv⟩ := hv
  refine ⟨bs₁ ++ bs₂, ?_, fun rest => ?_⟩
  · rw [ encodeEntry?, hkey, hvalue]
    rfl
  · rw [entry, List.append_assoc, hreadk]
    change (item (depth + 1) (bs₂ ++ rest) >>= _) = _
    rw [hreadv]
    rfl

theorem returns_entries {fields : List (String × Value)}
    (hkeys : ∀ f ∈ fields, Returns depth (.text f.1)) (hvalues : ∀ f ∈ fields, Returns depth f.2) :
    ∃ bs, encodeEntries? (fields.map fun (k, v) => (.text k, v)) = some bs ∧ ∀ rest,
      times (entry (item (depth + 1))) fields.length (bs ++ rest) =
        some (fields.map fun (k, v) => (.text k, v.kept), rest) := by
  induction fields with
  | nil => exact ⟨[], rfl, fun rest => rfl⟩
  | cons f fields ih =>
    obtain ⟨bs₁, hfirst, hread⟩ :=
      returns_entry (hkeys f List.mem_cons_self) (hvalues f List.mem_cons_self)
    obtain ⟨bs₂, hothers, hreads⟩ := ih (fun g hg => hkeys g (List.mem_cons_of_mem f hg))
      fun g hg => hvalues g (List.mem_cons_of_mem f hg)
    refine ⟨bs₁ ++ bs₂, ?_, fun rest => ?_⟩
    · rw [List.map_cons, encodeEntries?, hfirst, hothers]
      rfl
    · rw [List.length_cons, times, List.append_assoc, hread]
      change (times _ fields.length (bs₂ ++ rest) >>= _) = _
      rw [hreads]
      rfl

end Cbor

namespace Value

/-- A new key comes last. -/
theorem put_new {key : String} {fields : List (String × Value)} (h : key ∉ fields.map (·.1))
    (v : Value) : put (text key) v (fields.map fun (k, v) => (text k, v)) =
      (fields ++ [(key, v)]).map fun (k, v) => (text k, v) := by
  induction fields with
  | nil => rfl
  | cons f fields ih =>
    obtain ⟨hne, hnew⟩ := not_or.mp (mt List.mem_cons.mpr h)
    have hsame : ¬ (text f.1).same (text key) := fun h =>
      hne (Option.some.inj ((text_same_iff f.1 (text key)).mp h))
    rw [List.map_cons, put, if_neg hsame, ih hnew]
    rfl

/-- Distinct keys stay as they are. -/
theorem ofEntries_distinct {fields : List (String × Value)} (h : (fields.map (·.1)).Nodup) :
    ofEntries (fields.map fun (k, v) => (text k, v)) = record fields := by
  have hfold (made : List (String × Value)) (hmade : ((made ++ fields).map (·.1)).Nodup) :
      (fields.map fun (k, v) => (text k, v)).foldl (fun es (k, v) => put k v es)
        (made.map fun (k, v) => (text k, v)) =
        (made ++ fields).map fun (k, v) => (text k, v) := by
    induction fields generalizing made with
    | nil => rw [List.append_nil]; rfl
    | cons f fields ih =>
      have hnew : f.1 ∉ made.map (·.1) := by
        rw [List.map_append, List.map_cons] at hmade
        exact fun hf => (List.nodup_append.mp hmade).2.2 _ hf _ List.mem_cons_self rfl
      rw [List.map_cons, List.foldl_cons]
      change List.foldl _ (put (text f.1) f.2 _) _ = _
      rw [put_new hnew, ih (List.nodup_cons.mp h).2 _ (by simpa using hmade), List.append_assoc]
      rfl
  exact congrArg map (hfold [] h)

end Value

namespace Cbor

variable {depth : Nat} {v : Value}

theorem returns_map {fields : List (String × Value)} (hshort : Short fields.length)
    (hdistinct : (fields.map (·.1)).Nodup) (hkeys : ∀ f ∈ fields, Returns depth (.text f.1))
    (hvalues : ∀ f ∈ fields, Returns depth f.2) : Returns (depth + 1) (.record fields) := by
  obtain ⟨bs, hbs, hread⟩ := returns_entries hkeys hvalues
  have hpayload : encode? (.record fields) = some (head 5 fields.length ++ bs) := by
    rw [Value.record, encode?, hbs, List.length_map]
    exact headed?_short hshort
  refine returns_headed (by decide) hshort hpayload fun rest => ?_
  change (times (entry (item (depth + 1))) fields.length (bs ++ rest) >>= fun p =>
    some (Value.ofEntries p.1, p.2)) = _
  have hkept : Value.ofEntries (fields.map fun (k, v) => (.text k, v.kept)) =
      (Value.record fields).kept := by
    rw [Value.kept_record, ← Value.ofEntries_distinct, List.map_map]
    · rfl
    · rw [List.map_map]
      exact hdistinct
  rw [hread, ← hkept]
  rfl

/-- JSON that is nested no deeper than can be read has a payload from which it is read again. -/
theorem returns_of_fits (h : Fits depth v) : Returns depth v := by
  induction h with
  | null => exact ⟨_, rfl, fun rest => rfl⟩
  | bool b => cases b <;> exact ⟨_, rfl, fun rest => rfl⟩
  | int n h => exact returns_int h
  | large n h => exact returns_large h
  | real x => exact returns_real x
  | text s h => exact returns_text h
  | noItems => exact ⟨_, rfl, fun rest => rfl⟩
  | list items h _ ih => exact returns_list h ih
  | noEntries => exact ⟨_, rfl, fun rest => rfl⟩
  | map fields h hdistinct hkeys _ ih =>
    exact returns_map h hdistinct (fun f hf => returns_text (hkeys f hf)) ih

theorem decode_of_returns (h : Returns depthLimit v) : (encode v) >>= decode = .ok v.kept := by
  obtain ⟨bs, hbs, hread⟩ := h
  have hitem : item (depthLimit + 1) bs = some (v.kept, []) := by
    rw [← hread [], List.append_nil]
  have hencode : encode v = .ok bs := by rw [encode, hbs]; rfl
  rw [hencode]
  change decode bs = _
  rw [decode, hitem]

theorem decode_encode (h : Fits depthLimit v) : (encode v) >>= decode = .ok v.kept :=
  decode_of_returns (returns_of_fits h)

end Cbor

end VirtualUsers
