import VirtualUsers.Proofs.ReadBack
/-!
# Clones of content

A clone is made of a map that no foreign object is in, and it is that map: what was put into a
payload comes back part by part, keys in their order. Anything else fails, and always as a copy that
cannot be made. A foreign object leaves everything around it without a payload.
-/

namespace VirtualUsers

namespace Value

/-- The value is the other one or stands in it, as an item or under a key. -/
inductive Part (u : Value) : Value → Prop
  | self : Part u u
  | item {v : Value} {items : List Value} (hv : v ∈ items) (h : Part u v) : Part u (.list items)
  | field {e : Value × Value} {entries : List (Value × Value)} (he : e ∈ entries)
      (h : Part u e.2) : Part u (.map entries)

def HoldsNaN (v : Value) : Prop :=
  ∃ x : Double, x.isNaN ∧ Part (.real x) v

mutual

/-- Only what is no number is kept in another form. -/
theorem kept_eq_self : (v : Value) → ¬ HoldsNaN v → v.kept = v
  | .real x, h => by
    have hx : ¬ x.isNaN := fun hx => h ⟨x, hx, .self⟩
    rw [kept_real, Double.kept, if_neg hx]
  | .list items, h => by
    rw [kept, keptItems_eq_self items fun v hv ⟨x, hx, hpart⟩ => h ⟨x, hx, .item hv hpart⟩]
  | .map entries, h => by
    rw [kept, keptEntries_eq_self entries fun e he ⟨x, hx, hpart⟩ => h ⟨x, hx, .field he hpart⟩]
  | .null, _ | .bool _, _ | .int _, _ | .text _, _ | .bytes _, _ | .tagged .., _ | .simple _, _
  | .undefined, _ | .member .., _ | .levels .., _ | .event .., _ | .foreign, _ => rfl

theorem keptItems_eq_self : (vs : List Value) → (∀ v ∈ vs, ¬ HoldsNaN v) → keptItems vs = vs
  | [], _ => rfl
  | v :: vs, h => by
    rw [keptItems, kept_eq_self v (h v List.mem_cons_self),
      keptItems_eq_self vs fun w hw => h w (List.mem_cons_of_mem v hw)]

theorem keptEntries_eq_self : (es : List (Value × Value)) → (∀ e ∈ es, ¬ HoldsNaN e.2) →
    keptEntries es = es
  | [], _ => rfl
  | e :: es, h => by
    rw [keptEntries, keptEntry_eq_self e (h e List.mem_cons_self),
      keptEntries_eq_self es fun d hd => h d (List.mem_cons_of_mem e hd)]

theorem keptEntry_eq_self : (e : Value × Value) → ¬ HoldsNaN e.2 → keptEntry e = e
  | (k, v), h => by rw [keptEntry, kept_eq_self v h]

end

end Value

namespace Cbor

open Text
open Value (Part HoldsNaN)

/-- The value is put together from JSON, byte strings and foreign objects, nested at most as deep as
given. -/
inductive Assembled : Nat → Value → Prop
  | json {depth : Nat} {v : Value} (h : Fits depth v) : Assembled depth v
  | bytes {depth : Nat} (bs : List UInt8) (h : Short bs.length) : Assembled depth (.bytes bs)
  | foreign {depth : Nat} : Assembled depth .foreign
  | list {depth : Nat} (items : List Value) (h : Short items.length)
      (hitems : ∀ v ∈ items, Assembled depth v) : Assembled (depth + 1) (.list items)
  | map {depth : Nat} (fields : List (String × Value)) (h : Short fields.length)
      (hdistinct : (fields.map (·.1)).Nodup) (hkeys : ∀ f ∈ fields, Short (utf8 f.1).length)
      (hvalues : ∀ f ∈ fields, Assembled depth f.2) : Assembled (depth + 1) (.record fields)

variable {depth : Nat} {v : Value}

theorem encodeItems?_none {items : List Value} (hv : v ∈ items) (h : encode? v = none) :
    encodeItems? items = none := by
  induction items with
  | nil => cases hv
  | cons w items ih =>
    rw [encodeItems?]
    rcases List.mem_cons.mp hv with rfl | hv
    · rw [h]
      rfl
    · rw [ih hv]
      cases encode? w <;> rfl

theorem encodeEntries?_none {entries : List (Value × Value)} {e : Value × Value}
    (he : e ∈ entries) (h : encode? e.2 = none) : encodeEntries? entries = none := by
  induction entries with
  | nil => cases he
  | cons d entries ih =>
    rw [encodeEntries?]
    rcases List.mem_cons.mp he with rfl | he
    · have hentry : encodeEntry? e = none := by
        rw [ encodeEntry?, h]
        cases encode? e.1 <;> rfl
      rw [hentry]
      rfl
    · rw [ih he]
      cases encodeEntry? d <;> rfl

/-- Nothing that a foreign object is in has a payload. -/
theorem encode?_of_foreign (h : Part .foreign v) : encode? v = none := by
  induction h with
  | self => rfl
  | item hv _ ih =>
    rw [encode?, encodeItems?_none hv ih]
    rfl
  | field he _ ih =>
    rw [encode?, encodeEntries?_none he ih]
    rfl

theorem returns_bytes {bs : List UInt8} (h : Short bs.length) : Returns depth (.bytes bs) :=
  ⟨_, headed?_short h, fun rest => item_bytes rfl h rest⟩

/-- Without a foreign object a value is read again from its payload. -/
theorem Assembled.returns (h : Assembled depth v) (hfree : ¬ Part .foreign v) :
    Returns depth v := by
  induction h with
  | json h => exact returns_of_fits h
  | bytes bs h => exact returns_bytes h
  | foreign => exact absurd .self hfree
  | list items h _ ih =>
    exact returns_list h fun v hv => ih v hv fun hpart => hfree (.item hv hpart)
  | map fields h hdistinct hkeys _ ih =>
    exact returns_map h hdistinct (fun f hf => returns_text (hkeys f hf)) fun f hf =>
      ih f hf fun hpart => hfree (.field (List.mem_map_of_mem hf) hpart)

end Cbor

namespace Content

open Cbor (Assembled Fits depthLimit)
open Value (Part HoldsNaN)

variable {v : Value}

/-- What is assembled stands for itself, since no record is among it. -/
theorem ofRecord_assembled {depth : Nat} (h : Assembled depth v) : ofRecord v = .ok v := by
  cases h with
  | json h => cases h <;> rfl
  | _ => rfl

theorem clone_foreign (h : Assembled depthLimit v) (hforeign : Part .foreign v) :
    clone v = .error (.unencodable v) := by
  rw [clone, ofRecord_assembled h]
  change (Cbor.encode v >>= fun bs => Cbor.decode bs >>= _) = _
  rw [Cbor.encode, Cbor.encode?_of_foreign hforeign]
  rfl

theorem clone_free (h : Assembled depthLimit v) (hfree : ¬ Part .foreign v) :
    clone v = if v.isMap then .ok v.kept else .error .contentNotMap := by
  have hmap : v.kept.isMap = v.isMap := by cases v <;> rfl
  obtain ⟨bs, hencode, hdecode⟩ := bind_eq_ok (Cbor.decode_of_returns (h.returns hfree))
  rw [clone, ofRecord_assembled h]
  change (Cbor.encode v >>= fun bs => Cbor.decode bs >>= _) = _
  rw [hencode]
  change (Cbor.decode bs >>= _) = _
  rw [hdecode, ← hmap]
  rfl

/-! ## Records -/

theorem kept_fields {fields : List (String × Value)} (h : ∀ f ∈ fields, f.2.kept = f.2) :
    (Value.record fields).kept = .record fields := by
  have hsame (f : String × Value) (hf : f ∈ fields) : (f.1, f.2.kept) = f := by rw [h f hf]
  rw [Value.kept_record, List.map_congr_left hsame, List.map_id']

theorem kept_levelMap (levels : List (String × Int)) :
    (PowerLevels.levelMap levels).kept = PowerLevels.levelMap levels := by
  refine kept_fields fun f hf => ?_
  obtain ⟨level, -, rfl⟩ := List.mem_map.mp hf
  rfl

/-- The content that a record gives is kept as it is. -/
theorem kept_record {record : Value} {entries : List (Value × Value)} (h : Writable record)
    (hrecord : ¬ record.isMap) (hbody : ofRecord record = .ok (.map entries)) :
    (Value.map entries).kept = .map entries := by
  cases h with
  | map entries' => exact absurd rfl hrecord
  | member membership displayname avatarUrl =>
    have hcontent := toContent_member membership displayname avatarUrl
    rw [← Except.ok.inj hbody, hcontent]
    refine kept_fields fun f hf => ?_
    obtain ⟨field, -, rfl⟩ := List.mem_map.mp hf
    rfl
  | levels l =>
    rw [← Except.ok.inj hbody]
    refine kept_fields fun f hf => ?_
    simp only [List.mem_cons, List.not_mem_nil, or_false] at hf
    rcases hf with rfl | rfl | rfl | rfl | rfl | rfl | rfl | rfl | rfl
    · exact kept_levelMap l.users
    · rfl
    · exact kept_levelMap l.events
    all_goals rfl

/-- What is cloned comes out part by part as it was, but for the form of what is no number. That is
so for all maps without foreign objects, and for them only; all else fails as a copy that cannot be
made. A record with fields of the right types gives the content that it is for. -/
theorem clone_exact :
    (∀ v, Assembled depthLimit v →
      ((∃ w, clone v = .ok w) ↔ v.isMap ∧ ¬ Part .foreign v) ∧
      (∀ w, clone v = .ok w → w = v.kept ∧ (¬ HoldsNaN v → w = v)) ∧
      ∀ e, clone v = .error e → Bridge.isCopyFailure e) ∧
    ∀ record, Writable record → ¬ record.isMap →
      ∃ entries, ofRecord record = .ok (.map entries) ∧ clone record = .ok (.map entries) := by
  refine ⟨fun v h => ?_, fun record h hrecord => ?_⟩
  · by_cases hforeign : Part .foreign v
    · rw [clone_foreign h hforeign]
      refine ⟨⟨nofun, fun hmap => absurd hforeign hmap.2⟩, nofun, fun e he => ?_⟩
      cases he
      rfl
    · rw [clone_free h hforeign]
      by_cases hmap : v.isMap
      · rw [if_pos hmap]
        refine ⟨⟨fun _ => ⟨hmap, hforeign⟩, fun _ => ⟨_, rfl⟩⟩, fun w hw => ?_, nofun⟩
        cases hw
        exact ⟨rfl, v.kept_eq_self⟩
      · rw [if_neg hmap]
        refine ⟨⟨nofun, fun h => absurd h.1 hmap⟩, nofun, fun e he => ?_⟩
        cases he
        rfl
  · obtain ⟨entries, hbody, hfits⟩ := h.body
    refine ⟨entries, hbody, (clone_fits hbody hfits).trans ?_⟩
    exact congrArg Except.ok (kept_record h hrecord hbody)

/-- Numbers at the bounds of their heads, something that is no number, bytes, and one thing more. -/
def Example.mixed (last : Value) : Value :=
  .record [("z", .bytes [0x00, 0xff]),
    ("a", .list [.int 23, .int 24, .int 255, .int 256, .int 0x10000000000000000,
      .int (-0x10000000000000001), .real ⟨0x7ff8000000000001⟩, last])]

theorem Example.assembled_mixed {last : Value} (hlast : Assembled 398 last) :
    Assembled depthLimit (mixed last) := by
  have hkeys : ∀ key ∈ ["z", "a"], Cbor.Short (Text.utf8 key).length := by decide
  refine .map _ (show Cbor.Short 2 by decide) (show ["z", "a"].Nodup by decide) (fun f hf => ?_)
    fun f hf => ?_
  · exact hkeys f.1 (List.mem_map_of_mem (f := Prod.fst) hf)
  · simp only [List.mem_cons, List.not_mem_nil, or_false] at hf
    rcases hf with rfl | rfl
    · exact .bytes _ (by decide)
    · refine .list _ (show Cbor.Short 8 by decide) fun v hv => ?_
      simp only [List.mem_cons, List.not_mem_nil, or_false] at hv
      rcases hv with rfl | rfl | rfl | rfl | rfl | rfl | rfl | rfl
      iterate 6 exact .json (.large _ (by decide +kernel))
      · exact .json (.real _)
      · exact hlast

theorem clone_exact_mixed :
    clone (Example.mixed .null) = .ok (Example.mixed .null).kept ∧
    (∃ e, clone (Example.mixed .foreign) = .error e ∧ Bridge.isCopyFailure e) ∧
    ∃ entries, clone ({} : PowerLevels).draft.toValue = .ok (.map entries) := by
  refine ⟨?_, ?_, ?_⟩
  · have hok : (clone (Example.mixed .null)).isOk := by decide +kernel
    obtain ⟨-, hsame, -⟩ := clone_exact.1 _ (Example.assembled_mixed (.json .null))
    cases hclone : clone (Example.mixed .null) with
    | error e =>
      rw [hclone] at hok
      cases hok
    | ok w => rw [(hsame w hclone).1]
  · have hforeign : Part .foreign (Example.mixed .foreign) :=
      .field (List.mem_cons_of_mem _ List.mem_cons_self)
        (.item (List.mem_of_getLast? rfl) .self)
    obtain ⟨hiff, -, hfails⟩ := clone_exact.1 _ (Example.assembled_mixed .foreign)
    cases hclone : clone (Example.mixed .foreign) with
    | error e => exact ⟨e, rfl, hfails e hclone⟩
    | ok w => exact absurd hforeign (hiff.mp ⟨w, hclone⟩).2
  · have hempty : WritableLevels [] := ⟨by decide, List.nodup_nil, nofun, nofun⟩
    obtain ⟨entries, -, hclone⟩ := clone_exact.2 _ (.levels {} hempty hempty (by decide))
      (by decide)
    exact ⟨entries, hclone⟩

end Content

end VirtualUsers
