import FileWatch.Proofs.Json.Readings
import FileWatch.Text.Utf8
/-!
UTF-8 in both directions. Encoding and decoding are two readings of one relation between texts and
bytes, and a line feed stands for itself alone, so bytes may be cut behind one.
-/

namespace FileWatch.Utf8

def Encodes (t : Text) (b : Bytes) : Prop :=
  (∀ c ∈ t, c.isSurrogate = false) ∧ b = t.flatMap encodePoint

theorem encodes_nil : Encodes [] [] := ⟨by simp, rfl⟩

theorem encodes_cons {c : CodePoint} {t : Text} {b : Bytes} (hc : c.isSurrogate = false)
    (h : Encodes t b) : Encodes (c :: t) (encodePoint c ++ b) := by
  obtain ⟨hs, rfl⟩ := h
  refine ⟨?_, rfl⟩
  intro d hd
  rcases List.mem_cons.mp hd with rfl | hd
  · exact hc
  · exact hs d hd

theorem encodes_append {t u : Text} {b d : Bytes} (ht : Encodes t b) (hu : Encodes u d) :
    Encodes (t ++ u) (b ++ d) := by
  obtain ⟨hs, rfl⟩ := ht
  obtain ⟨hs', rfl⟩ := hu
  refine ⟨?_, List.flatMap_append.symm⟩
  intro c hc
  rcases List.mem_append.mp hc with hc | hc
  · exact hs c hc
  · exact hs' c hc

/-! Writing. -/

theorem encodeFrom_ok {t : Text} {position : Nat} {b : Bytes} :
    encodeFrom position t = .ok b ↔ Encodes t b := by
  induction t generalizing position b with
  | nil =>
    constructor
    · intro h
      cases h
      exact encodes_nil
    · rintro ⟨-, rfl⟩
      rfl
  | cons c t ih =>
    rw [encodeFrom]
    by_cases hc : c.isSurrogate = true
    · rw [if_pos hc]
      constructor
      · intro h
        cases h
      · rintro ⟨hs, -⟩
        simp [hs c (by simp)] at hc
    · rw [if_neg hc]
      constructor
      · intro h
        cases hrest : encodeFrom (position + 1) t with
        | error e =>
          rw [hrest] at h
          cases h
        | ok d =>
          rw [hrest] at h
          cases h
          exact encodes_cons (by simpa using hc) (ih.mp hrest)
      · rintro ⟨hs, rfl⟩
        have hrest : encodeFrom (position + 1) t = .ok (t.flatMap encodePoint) :=
          ih.mpr ⟨fun d hd => hs d (by simp [hd]), rfl⟩
        rw [hrest]
        rfl

theorem encode_ok {t : Text} {b : Bytes} : encode t = .ok b ↔ Encodes t b := encodeFrom_ok

/-! Reading one code point. -/

theorem byte_of_toNat {b : UInt8} {n : Nat} (h : n = b.toNat) : UInt8.ofNat n = b := by
  rw [h]
  exact UInt8.ofNat_toNat

theorem point_val {n : Nat} (h : n < 0x110000) : (Fin.ofNat 0x110000 n).val = n :=
  Nat.mod_eq_of_lt h

theorem not_surrogate {c : CodePoint} (h : c.val < 0xD800 ∨ 0xDFFF < c.val) :
    c.isSurrogate = false := by
  simp only [CodePoint.isSurrogate, Bool.and_eq_false_iff, decide_eq_false_iff_not]
  omega

/-- What the start byte of a longer form calls for, by the length of the form. -/
theorem lead_some {b low high : UInt8} {count : Nat} (h : lead b = some (count, low, high)) :
    (count = 1 ∧ 0xC2 ≤ b.toNat ∧ b.toNat < 0xE0 ∧ low = 0x80 ∧ high = 0xBF) ∨
    (count = 2 ∧ 0xE0 ≤ b.toNat ∧ b.toNat < 0xF0 ∧ 0x80 ≤ low.toNat ∧ high.toNat ≤ 0xBF ∧
      (b.toNat = 0xE0 → low = 0xA0) ∧ (b.toNat = 0xED → high = 0x9F)) ∨
    (count = 3 ∧ 0xF0 ≤ b.toNat ∧ b.toNat ≤ 0xF4 ∧ 0x80 ≤ low.toNat ∧ high.toNat ≤ 0xBF ∧
      (b.toNat = 0xF0 → low = 0x90) ∧ (b.toNat = 0xF4 → high = 0x8F)) := by
  unfold lead at h
  simp only [UInt8.lt_iff_toNat_lt, ← UInt8.toNat_inj, UInt8.reduceToNat] at h ⊢
  split_ifs at h <;> cases h <;> simp <;> omega

theorem continuation_cons {low high : UInt8} {value good count n : Nat} {rest : Bytes}
    (h : continuation low high value good (count + 1) rest = .ok n) :
    ∃ b more, rest = b :: more ∧ low.toNat ≤ b.toNat ∧ b.toNat ≤ high.toNat ∧
      continuation 0x80 0xBF (value * 64 + (b.toNat - 0x80)) (good + 1) count more = .ok n := by
  cases rest with
  | nil => cases h
  | cons b more =>
    rw [continuation] at h
    split_ifs at h with hb
    simp only [Bool.and_eq_true, decide_eq_true_eq, UInt8.le_iff_toNat_le] at hb
    exact ⟨b, more, rfl, hb.1, hb.2, h⟩

theorem continuation_zero {low high : UInt8} {value good n : Nat} {rest : Bytes}
    (h : continuation low high value good 0 rest = .ok n) : n = value :=
  (Except.ok.inj h).symm

theorem encodePoint_one {b : UInt8} (h : b.toNat < 0x80) :
    encodePoint (Fin.ofNat 0x110000 b.toNat) = [b] := by
  unfold encodePoint
  simp only [point_val (show b.toNat < 0x110000 by omega), if_pos h, Nat.zero_add,
    UInt8.ofNat_toNat]

theorem encodePoint_two {b b₁ : UInt8} {n : Nat} (hb : 0xC2 ≤ b.toNat) (hb' : b.toNat < 0xE0)
    (h₁ : 0x80 ≤ b₁.toNat) (h₁' : b₁.toNat ≤ 0xBF)
    (hn : n = b.toNat % 32 * 64 + (b₁.toNat - 0x80)) :
    encodePoint (Fin.ofNat 0x110000 n) = [b, b₁] := by
  unfold encodePoint
  simp only [point_val (show n < 0x110000 by omega)]
  rw [if_neg (by omega), if_pos (by omega), byte_of_toNat (b := b) (by omega),
    byte_of_toNat (b := b₁) (by omega)]

theorem encodePoint_three {b b₁ b₂ : UInt8} {n : Nat} (hb : 0xE0 ≤ b.toNat) (hb' : b.toNat < 0xF0)
    (h₁ : 0x80 ≤ b₁.toNat) (h₁' : b₁.toNat ≤ 0xBF) (h₂ : 0x80 ≤ b₂.toNat) (h₂' : b₂.toNat ≤ 0xBF)
    (hn : n = (b.toNat % 16 * 64 + (b₁.toNat - 0x80)) * 64 + (b₂.toNat - 0x80))
    (hsize : 0x800 ≤ n) : encodePoint (Fin.ofNat 0x110000 n) = [b, b₁, b₂] := by
  unfold encodePoint
  simp only [point_val (show n < 0x110000 by omega)]
  rw [if_neg (by omega), if_neg (by omega), if_pos (by omega), byte_of_toNat (b := b) (by omega),
    byte_of_toNat (b := b₁) (by omega), byte_of_toNat (b := b₂) (by omega)]

theorem encodePoint_four {b b₁ b₂ b₃ : UInt8} {n : Nat} (hb : 0xF0 ≤ b.toNat)
    (hb' : b.toNat ≤ 0xF4) (h₁ : 0x80 ≤ b₁.toNat) (h₁' : b₁.toNat ≤ 0xBF) (h₂ : 0x80 ≤ b₂.toNat)
    (h₂' : b₂.toNat ≤ 0xBF) (h₃ : 0x80 ≤ b₃.toNat) (h₃' : b₃.toNat ≤ 0xBF)
    (hn : n = ((b.toNat % 8 * 64 + (b₁.toNat - 0x80)) * 64 + (b₂.toNat - 0x80)) * 64 +
      (b₃.toNat - 0x80))
    (hsize : 0x10000 ≤ n) (hlast : n < 0x110000) :
    encodePoint (Fin.ofNat 0x110000 n) = [b, b₁, b₂, b₃] := by
  unfold encodePoint
  simp only [point_val hlast]
  rw [if_neg (by omega), if_neg (by omega), if_neg (by omega), byte_of_toNat (b := b) (by omega),
    byte_of_toNat (b := b₁) (by omega), byte_of_toNat (b := b₂) (by omega),
    byte_of_toNat (b := b₃) (by omega)]

/-- A longer form that is read is the form of what it is read as. -/
theorem longer_form_sound {b low high : UInt8} {count n : Nat} {rest : Bytes}
    (hlead : lead b = some (count, low, high))
    (h : continuation low high (leadPayload b count) 0 count rest = .ok n) :
    encodePoint (Fin.ofNat 0x110000 n) = b :: rest.take count ∧
      CodePoint.isSurrogate (Fin.ofNat 0x110000 n) = false := by
  have h80 : (0x80 : UInt8).toNat = 0x80 := rfl
  have hBF : (0xBF : UInt8).toNat = 0xBF := rfl
  rcases lead_some hlead with ⟨rfl, hb, hb', rfl, rfl⟩ | ⟨rfl, hb, hb', hl, hh, hE0, hED⟩ |
    ⟨rfl, hb, hb', hl, hh, hF0, hF4⟩
  · obtain ⟨b₁, more, rfl, h₁, h₁', hend⟩ := continuation_cons h
    have hn := continuation_zero hend
    simp only [leadPayload] at hn
    refine ⟨encodePoint_two hb hb' h₁ h₁' hn, not_surrogate ?_⟩
    rw [point_val (by omega)]
    omega
  · obtain ⟨b₁, more, rfl, h₁, h₁', hnext⟩ := continuation_cons h
    obtain ⟨b₂, more, rfl, h₂, h₂', hend⟩ := continuation_cons hnext
    have hn := continuation_zero hend
    simp only [leadPayload] at hn
    have hfirst : b.toNat = 0xE0 → 0xA0 ≤ b₁.toNat := by
      intro he
      rwa [hE0 he] at h₁
    have hlast : b.toNat = 0xED → b₁.toNat ≤ 0x9F := by
      intro he
      rwa [hED he] at h₁'
    refine ⟨encodePoint_three hb hb' (by omega) (by omega) h₂ h₂' hn (by omega), not_surrogate ?_⟩
    rw [point_val (by omega)]
    omega
  · obtain ⟨b₁, more, rfl, h₁, h₁', hnext⟩ := continuation_cons h
    obtain ⟨b₂, more, rfl, h₂, h₂', hnext⟩ := continuation_cons hnext
    obtain ⟨b₃, more, rfl, h₃, h₃', hend⟩ := continuation_cons hnext
    have hn := continuation_zero hend
    simp only [leadPayload] at hn
    have hfirst : b.toNat = 0xF0 → 0x90 ≤ b₁.toNat := by
      intro he
      rwa [hF0 he] at h₁
    have hlast : b.toNat = 0xF4 → b₁.toNat ≤ 0x8F := by
      intro he
      rwa [hF4 he] at h₁'
    refine ⟨encodePoint_four hb hb' (by omega) (by omega) h₂ h₂' h₃ h₃' hn (by omega) (by omega),
      not_surrogate ?_⟩
    rw [point_val (by omega)]
    omega

theorem decodeFrom_skip (position skip : Nat) (b : Bytes) :
    decodeFrom position skip b = decodeFrom (position + skip) 0 (b.drop skip) := by
  induction skip generalizing position b with
  | zero => rfl
  | succ skip ih =>
    cases b with
    | nil => rfl
    | cons d rest =>
      rw [decodeFrom, ih, List.drop_succ_cons]
      congr 1
      omega

/-- The rest of a text behind a code point that has been read. -/
theorem bind_point_ok {r : Except DecodeError Text} {c : CodePoint} {t : Text}
    (h : (do let text ← r; .ok (c :: text)) = .ok t) : ∃ u, r = .ok u ∧ t = c :: u := by
  rcases r with e | u
  · cases h
  · exact ⟨u, rfl, (Except.ok.inj h).symm⟩

/-- A text that was read begins with a code point whose form stands at the front of the bytes. -/
theorem decodeFrom_cons {position : Nat} {d : UInt8} {rest : Bytes} {t : Text}
    (h : decodeFrom position 0 (d :: rest) = .ok t) :
    ∃ c u more p, t = c :: u ∧ c.isSurrogate = false ∧ d :: rest = encodePoint c ++ more ∧
      more.length ≤ rest.length ∧ decodeFrom p 0 more = .ok u := by
  rw [decodeFrom] at h
  by_cases hd : d < 0x80
  · rw [if_pos hd] at h
    obtain ⟨u, hu, rfl⟩ := bind_point_ok h
    rw [UInt8.lt_iff_toNat_lt] at hd
    have hplain : CodePoint.isSurrogate (Fin.ofNat 0x110000 d.toNat) = false := by
      apply not_surrogate
      rw [point_val (by have := d.toNat_lt; omega)]
      have h80 : (0x80 : UInt8).toNat = 0x80 := rfl
      omega
    exact ⟨_, u, rest, _, rfl, hplain, by rw [encodePoint_one hd]; rfl, le_rfl, hu⟩
  · rw [if_neg hd] at h
    cases hlead : lead d with
    | none =>
      rw [hlead] at h
      cases h
    | some form =>
      obtain ⟨count, low, high⟩ := form
      simp only [hlead] at h
      cases hcont : continuation low high (leadPayload d count) 0 count rest with
      | error e =>
        simp only [hcont] at h
        cases h
      | ok value =>
        simp only [hcont] at h
        obtain ⟨u, hu, rfl⟩ := bind_point_ok h
        rw [decodeFrom_skip] at hu
        obtain ⟨hpoint, hplain⟩ := longer_form_sound hlead hcont
        refine ⟨_, u, rest.drop count, _, rfl, hplain, ?_, ?_, hu⟩
        · rw [hpoint, List.cons_append, List.take_append_drop]
        · rw [List.length_drop]
          exact Nat.sub_le _ _

theorem decodeFrom_sound {position : Nat} {b : Bytes} {t : Text}
    (h : decodeFrom position 0 b = .ok t) : Encodes t b := by
  induction hn : b.length using Nat.strong_induction_on generalizing position b t with
  | _ n ih =>
    cases b with
    | nil =>
      cases h
      exact encodes_nil
    | cons d rest =>
      obtain ⟨c, u, more, p, rfl, hc, hsplit, hlength, hu⟩ := decodeFrom_cons h
      rw [List.length_cons] at hn
      have hmore := ih more.length (by omega) hu rfl
      rw [hsplit]
      exact encodes_cons hc hmore

theorem continuation_read {low high b : UInt8} (value good count : Nat) (rest : Bytes)
    (hl : low.toNat ≤ b.toNat) (hh : b.toNat ≤ high.toNat) :
    continuation low high value good (count + 1) (b :: rest) =
      continuation 0x80 0xBF (value * 64 + (b.toNat - 0x80)) (good + 1) count rest := by
  rw [continuation, if_pos]
  simp only [Bool.and_eq_true, decide_eq_true_eq, UInt8.le_iff_toNat_le]
  exact ⟨hl, hh⟩

theorem lead_two {b : UInt8} (h : 0xC2 ≤ b.toNat) (h' : b.toNat < 0xE0) :
    lead b = some (1, 0x80, 0xBF) := by
  unfold lead
  simp only [UInt8.lt_iff_toNat_lt, UInt8.reduceToNat]
  rw [if_neg (by omega), if_pos h']

theorem lead_three {b : UInt8} (h : 0xE0 ≤ b.toNat) (h' : b.toNat < 0xF0) :
    ∃ low high, lead b = some (2, low, high) ∧
      low.toNat = (if b.toNat = 0xE0 then 0xA0 else 0x80) ∧
      high.toNat = (if b.toNat = 0xED then 0x9F else 0xBF) := by
  unfold lead
  simp only [UInt8.lt_iff_toNat_lt, ← UInt8.toNat_inj, UInt8.reduceToNat]
  rw [if_neg (by omega), if_neg (by omega)]
  split_ifs <;> first | omega | exact ⟨_, _, rfl, rfl, rfl⟩

theorem lead_four {b : UInt8} (h : 0xF0 ≤ b.toNat) (h' : b.toNat ≤ 0xF4) :
    ∃ low high, lead b = some (3, low, high) ∧
      low.toNat = (if b.toNat = 0xF0 then 0x90 else 0x80) ∧
      high.toNat = (if b.toNat = 0xF4 then 0x8F else 0xBF) := by
  unfold lead
  simp only [UInt8.lt_iff_toNat_lt, ← UInt8.toNat_inj, UInt8.reduceToNat]
  rw [if_neg (by omega), if_neg (by omega)]
  split_ifs <;> first | omega | exact ⟨_, _, rfl, rfl, rfl⟩

theorem ofNat_toNat {n : Nat} (h : n < 0x100) : (UInt8.ofNat n).toNat = n := by
  rw [UInt8.toNat_ofNat']
  exact Nat.mod_eq_of_lt h

theorem point_of_val {c : CodePoint} {n : Nat} (h : n = c.val) : Fin.ofNat 0x110000 n = c := by
  rw [h]
  exact Fin.ofNat_val_eq_self c

/-- A longer form at the front is read when its continuation bytes are. -/
theorem decodeFrom_longer (conts : Bytes) {position count : Nat} {b low high : UInt8}
    {rest : Bytes} {c : CodePoint} {t : Text} (hb : 0x80 ≤ b.toNat)
    (hlead : lead b = some (count, low, high))
    (hcont : continuation low high (leadPayload b count) 0 count (conts ++ rest) = .ok c.val)
    (hcount : conts.length = count) (hrest : ∀ p, decodeFrom p 0 rest = .ok t) :
    decodeFrom position 0 (b :: (conts ++ rest)) = .ok (c :: t) := by
  have hlow : ¬ b < 0x80 := by
    rw [UInt8.lt_iff_toNat_lt]
    have h80 : (0x80 : UInt8).toNat = 0x80 := rfl
    omega
  rw [decodeFrom, if_neg hlow]
  simp only [hlead, hcont]
  rw [decodeFrom_skip, ← hcount, List.drop_left, hrest, point_of_val rfl]
  rfl

theorem decodeFrom_point {c : CodePoint} {rest : Bytes} {t : Text} (hc : c.isSurrogate = false)
    (hrest : ∀ p, decodeFrom p 0 rest = .ok t) (position : Nat) :
    decodeFrom position 0 (encodePoint c ++ rest) = .ok (c :: t) := by
  have hsize := c.isLt
  have h80 : (0x80 : UInt8).toNat = 0x80 := rfl
  have hBF : (0xBF : UInt8).toNat = 0xBF := rfl
  simp only [CodePoint.isSurrogate, Bool.and_eq_false_iff, decide_eq_false_iff_not] at hc
  unfold encodePoint
  simp only
  split_ifs with h1 h2 h3
  · have hb := ofNat_toNat (n := 0 + c.val) (by omega)
    rw [List.cons_append, decodeFrom, if_pos (by rw [UInt8.lt_iff_toNat_lt]; omega),
      List.nil_append, hrest, point_of_val (c := c) (by omega)]
    rfl
  · have hb := ofNat_toNat (n := 0xC0 + c.val / 64) (by omega)
    have hb₁ := ofNat_toNat (n := 0x80 + c.val % 64) (by omega)
    refine decodeFrom_longer [_] (by omega) (lead_two (by omega) (by omega)) ?_ rfl hrest
    rw [List.cons_append, continuation_read _ _ _ _ (by omega) (by omega), continuation]
    simp only [leadPayload]
    exact congrArg Except.ok (by omega)
  · have hb := ofNat_toNat (n := 0xE0 + c.val / 4096) (by omega)
    have hb₁ := ofNat_toNat (n := 0x80 + c.val / 64 % 64) (by omega)
    have hb₂ := ofNat_toNat (n := 0x80 + c.val % 64) (by omega)
    obtain ⟨low, high, hlead, hlow, hhigh⟩ := lead_three
      (b := UInt8.ofNat (0xE0 + c.val / 4096)) (by omega) (by omega)
    refine decodeFrom_longer [_, _] (by omega) hlead ?_ rfl hrest
    rw [List.cons_append, continuation_read _ _ _ _ (by split_ifs at hlow <;> omega)
      (by split_ifs at hhigh <;> omega), List.cons_append,
      continuation_read _ _ _ _ (by omega) (by omega), continuation]
    simp only [leadPayload]
    exact congrArg Except.ok (by omega)
  · have hb := ofNat_toNat (n := 0xF0 + c.val / 262144) (by omega)
    have hb₁ := ofNat_toNat (n := 0x80 + c.val / 4096 % 64) (by omega)
    have hb₂ := ofNat_toNat (n := 0x80 + c.val / 64 % 64) (by omega)
    have hb₃ := ofNat_toNat (n := 0x80 + c.val % 64) (by omega)
    obtain ⟨low, high, hlead, hlow, hhigh⟩ := lead_four
      (b := UInt8.ofNat (0xF0 + c.val / 262144)) (by omega) (by omega)
    refine decodeFrom_longer [_, _, _] (by omega) hlead ?_ rfl hrest
    rw [List.cons_append, continuation_read _ _ _ _ (by split_ifs at hlow <;> omega)
      (by split_ifs at hhigh <;> omega), List.cons_append,
      continuation_read _ _ _ _ (by omega) (by omega), List.cons_append,
      continuation_read _ _ _ _ (by omega) (by omega), continuation]
    simp only [leadPayload]
    exact congrArg Except.ok (by omega)

theorem decodeFrom_complete {t : Text} {b : Bytes} (h : Encodes t b) (position : Nat) :
    decodeFrom position 0 b = .ok t := by
  obtain ⟨hs, rfl⟩ := h
  induction t generalizing position with
  | nil => rfl
  | cons c t ih =>
    rw [List.flatMap_cons]
    have hrest : ∀ d ∈ t, d.isSurrogate = false := fun d hd => hs d (by simp [hd])
    exact decodeFrom_point (hs c (by simp)) (fun p => ih p hrest) position

theorem decode_ok {t : Text} {b : Bytes} : decode b = .ok t ↔ Encodes t b :=
  ⟨decodeFrom_sound, fun h => decodeFrom_complete h 0⟩

/-! Line feeds. -/

theorem encodePoint_ne_nil (c : CodePoint) : encodePoint c ≠ [] := by
  unfold encodePoint
  simp only
  split_ifs <;> simp

theorem line_feed_mem_encodePoint {c : CodePoint} : 0x0a ∈ encodePoint c ↔ c = '\n' := by
  have hsize := c.isLt
  have byte {n : Nat} (h : n < 0x100) : 0x0a = UInt8.ofNat n ↔ n = 0x0a := by
    have h0a : (0x0a : UInt8).toNat = 0x0a := rfl
    rw [← UInt8.toNat_inj, ofNat_toNat h]
    omega
  have feed : c = '\n' ↔ c.val = 0x0a := Fin.ext_iff
  rw [feed]
  unfold encodePoint
  simp only
  split_ifs with h1 h2 h3
  · rw [List.mem_singleton, byte (by omega)]
    omega
  · simp only [List.mem_cons, List.not_mem_nil, or_false]
    rw [byte (by omega), byte (by omega)]
    omega
  · simp only [List.mem_cons, List.not_mem_nil, or_false]
    rw [byte (by omega), byte (by omega), byte (by omega)]
    omega
  · simp only [List.mem_cons, List.not_mem_nil, or_false]
    rw [byte (by omega), byte (by omega), byte (by omega), byte (by omega)]
    omega

theorem encodePoint_line_feed : encodePoint '\n' = [0x0a] := rfl

theorem line_feed_mem {t : Text} {b : Bytes} (h : Encodes t b) :
    0x0a ∈ b ↔ ('\n' : CodePoint) ∈ t := by
  obtain ⟨-, rfl⟩ := h
  simp only [List.mem_flatMap, line_feed_mem_encodePoint]
  constructor
  · rintro ⟨c, hc, rfl⟩
    exact hc
  · intro hc
    exact ⟨_, hc, rfl⟩

theorem encodes_ended {t : Text} {b : Bytes} (h : Encodes t b) :
    b.getLast? = some 0x0a ↔ Json.Ended t := by
  obtain ⟨-, rfl⟩ := h
  rcases List.eq_nil_or_concat t with rfl | ⟨init, c, rfl⟩
  · simp [Json.Ended]
  · rw [List.concat_eq_append, List.flatMap_append, List.flatMap_singleton, Json.Ended,
      List.getLast?_append, List.getLast?_concat]
    have hlast := List.getLast?_eq_some_getLast (encodePoint_ne_nil c)
    rw [hlast, Option.some_or]
    constructor
    · intro h
      have hmem : 0x0a ∈ encodePoint c := List.mem_of_getLast? (hlast.trans h)
      rw [line_feed_mem_encodePoint.mp hmem]
    · intro h
      obtain rfl := Option.some.inj h
      rfl

/-- A form cannot be cut behind a line feed, unless it is the line feed itself. -/
theorem encodePoint_cut {c : CodePoint} {f more : Bytes} (h : encodePoint c = f ++ more)
    (hf : f.getLast? = some 0x0a) : c = '\n' ∧ f = [0x0a] ∧ more = [] := by
  have hmem : 0x0a ∈ encodePoint c := by
    rw [h]
    exact List.mem_append_left _ (List.mem_of_getLast? hf)
  obtain rfl := line_feed_mem_encodePoint.mp hmem
  rw [encodePoint_line_feed] at h
  rcases List.append_eq_singleton_iff.mp h.symm with ⟨rfl, -⟩ | hwhole
  · cases hf
  · exact ⟨rfl, hwhole⟩

/-- Bytes that end with a line feed are the whole form of some part of the text. -/
theorem encodes_cut {t : Text} {f g : Bytes} (h : Encodes t (f ++ g))
    (hf : f.getLast? = some 0x0a) :
    ∃ t₁ t₂, t = t₁ ++ t₂ ∧ Encodes t₁ f ∧ Encodes t₂ g := by
  obtain ⟨hs, hb⟩ := h
  induction t generalizing f with
  | nil =>
    rw [List.flatMap_nil] at hb
    obtain ⟨rfl, -⟩ := List.append_eq_nil_iff.mp hb
    cases hf
  | cons c t ih =>
    have hc := hs c (by simp)
    have ht : ∀ d ∈ t, d.isSurrogate = false := fun d hd => hs d (by simp [hd])
    rw [List.flatMap_cons] at hb
    rcases List.append_eq_append_iff.mp hb with ⟨more, hpoint, hg⟩ | ⟨more, rfl, hmore⟩
    · -- The cut lies in the form of `c`, which is then a line feed.
      obtain ⟨rfl, rfl, rfl⟩ := encodePoint_cut hpoint hf
      exact ⟨['\n'], t, rfl, encodes_cons hc encodes_nil, ht, hg⟩
    · by_cases hnil : more = []
      · subst hnil
        have hpoint := encodes_cons hc encodes_nil
        refine ⟨[c], t, rfl, hpoint, ht, ?_⟩
        rw [hmore, List.nil_append]
      · rw [List.getLast?_append_of_ne_nil _ hnil] at hf
        obtain ⟨t₁, t₂, rfl, h₁, h₂⟩ := ih hf ht hmore.symm
        exact ⟨c :: t₁, t₂, rfl, encodes_cons hc h₁, h₂⟩

end FileWatch.Utf8
