import FluxMarks.Proofs.Check.Engines
import FluxMarks.Record

/-!
# What the verdict on a record means

A record is called intact when no remainder is left over its whole span.
`check?_append_eq_zero_iff` turns that around: no remainder is left exactly
if the bytes stored at the end of the span are the check bytes of what
precedes them. The headline theorem `isIntact_exact` says so for every string of
bytes, with each length and each position spelled out, and draws the
conclusion for a body with check bytes appended.
-/

namespace FluxMarks

namespace RecordKind

/-! ## Marks -/

theorem ofMark_eq_dataMark {mark : UInt8} : ofMark mark = .dataMark ↔ mark = 0xf8 := by
  unfold ofMark dataMarkByte
  grind

theorem ofMark_eq_addressMark {mark : UInt8} :
    ofMark mark = .addressMark ↔ 0xf8 < mark := by
  unfold ofMark dataMarkByte
  split
  · next h => subst h; decide
  · split <;> simp_all

theorem ofMark_eq_unknown {mark : UInt8} : ofMark mark = .unknown ↔ mark < 0xf8 := by
  unfold ofMark dataMarkByte
  split
  · next h => subst h; decide
  · next hne =>
      have hcases : 0xf8 < mark ∨ mark < 0xf8 := by
        have : mark.toNat ≠ 248 := fun h => hne (UInt8.toNat_inj.mp h)
        simp only [UInt8.lt_iff_toNat_lt, UInt8.reduceToNat]
        omega
      split
      · next h => exact ⟨nofun, fun h' => absurd h (UInt8.lt_asymm h')⟩
      · next h => exact ⟨fun _ => hcases.resolve_left h, fun _ => rfl⟩

theorem exists_check?_eq {kind : RecordKind} (h : kind ≠ .unknown) (bytes : List UInt8) :
    ∃ check, kind.check? bytes = some check := by
  cases kind with
  | unknown => exact absurd rfl h
  | addressMark => exact ⟨_, rfl⟩
  | dataMark => exact ⟨_, rfl⟩

/-- The number of check bytes at the end of the span. -/
def checkLength : RecordKind → Nat
  | .dataMark => dataCheckLength
  | .addressMark => 2
  | .unknown => 0

/-- Both checks cover the bytes up to the stored check and then the stored
check itself, so over a whole span nothing is left exactly if what is
stored is what a controller writes there. -/
theorem check?_append_eq_zero_iff (mark : UInt8) (rest : List UInt8) {stored : List UInt8}
    (hlen : stored.length = (ofMark mark).checkLength) :
    (ofMark mark).check? (mark :: rest ++ stored) = some 0
      ↔ ofMark mark ≠ .unknown ∧ stored = checkBytes (mark :: rest) := by
  rw [checkBytes]
  cases hkind : ofMark mark with
  | unknown => simp [check?]
  | addressMark =>
      rw [hkind, checkLength] at hlen
      have hzero := Crc16.divisor.checksum_append_eq_zero_iff
        (preamble :: mark :: rest) (show 16 = 8 * stored.length by omega)
      rw [hlen, ← Crc16.checksum_eq, ← Crc16.checksum_eq, ← BitVec.toNat_inj,
        BitVec.toNat_zero] at hzero
      simpa [check?] using hzero
  | dataMark =>
      rw [hkind, checkLength, dataCheckLength] at hlen
      have hzero := Ecc56.divisor.checksum_append_eq_zero_iff
        (preamble :: mark :: rest) (show 56 = 8 * stored.length by omega)
      rw [hlen, ← BitVec.toNat_inj, ← Ecc56.toNat_checksum, ← Ecc56.toNat_checksum,
        BitVec.toNat_zero] at hzero
      simpa [check?, dataCheckLength] using hzero

theorem length_checkBytes (mark : UInt8) (rest : List UInt8) :
    (checkBytes (mark :: rest)).length = (ofMark mark).checkLength := by
  rw [checkBytes]
  cases ofMark mark <;> simp [checkLength, length_bigEndian]

/-- The number of bytes ahead of the stored check. -/
def bodyLength (kind : RecordKind) : Nat := kind.span - kind.checkLength

end RecordKind

/-! ## Parts -/

namespace Record

/-- What the parts of a record are, given the bytes that it was made from. -/
theorem parts_of_classify? {bytes : List UInt8} {r : Record} (h : classify? bytes = some r) :
    ∃ mark rest, bytes = mark :: rest ∧ r.kind = .ofMark mark ∧ r.length = bytes.length
      ∧ r.payload = bytes.take r.kind.span ∧ r.check = r.kind.check? r.payload := by
  cases bytes with
  | nil => cases h
  | cons mark rest =>
      obtain ⟨s, hs, hparts⟩ := classify?_cons mark rest
      obtain rfl := Option.some.inj (h.symm.trans hs)
      exact ⟨mark, rest, rfl, hparts⟩

theorem isIntact_eq_some_true_iff {r : Record} :
    r.isIntact = some true ↔ r.payload.length = r.kind.span ∧ r.check = some 0 := by
  cases hcheck : r.check <;> simp [isIntact, hcheck]

theorem isIntact_eq_some_false_of_ne {r : Record} {check : Nat} (h : r.check = some check)
    (hne : check ≠ 0) : r.isIntact = some false := by
  simp [isIntact, h, hne]

/-- A whole span makes a record whatever follows it, and if the record is of
the kind that has this span, the span is what it covers. -/
theorem exists_classify?_append {kind : RecordKind} {payload : List UInt8}
    (hlen : payload.length = kind.span) (tail : List UInt8) :
    ∃ r, classify? (payload ++ tail) = some r
      ∧ (r.kind = kind → r.payload = payload ∧ r.check = kind.check? payload) := by
  obtain ⟨n, hspan⟩ := kind.exists_span_eq_succ
  obtain ⟨mark, rest, rfl⟩ := List.exists_cons_of_length_eq_add_one (hlen.trans hspan)
  obtain ⟨r, hr, -, -, hpayload, hcheck⟩ := classify?_cons mark (rest ++ tail)
  refine ⟨r, hr, fun hsame => ?_⟩
  rw [hsame, ← hlen, ← List.cons_append, List.take_left] at hpayload
  rw [hsame, hpayload] at hcheck
  exact ⟨hpayload, hcheck⟩

/-- An intact record covers a whole span, with nothing left over it. -/
theorem covered_of_isIntact {bytes : List UInt8} {r : Record} (h : classify? bytes = some r)
    (hintact : r.isIntact = some true) :
    r.payload.length = r.kind.span ∧ bytes = r.payload ++ bytes.drop r.kind.span
      ∧ r.kind.check? r.payload = some 0 := by
  obtain ⟨hfull, hzero⟩ := isIntact_eq_some_true_iff.mp hintact
  obtain ⟨-, -, -, -, -, hpayload, hcheck⟩ := parts_of_classify? h
  exact ⟨hfull, by rw [hpayload, List.take_append_drop], hcheck.symm.trans hzero⟩

/-- A whole span makes a record that is not intact if anything is left over
it. -/
theorem exists_not_isIntact {mark : UInt8} {rest : List UInt8} {kind : RecordKind}
    (hmark : RecordKind.ofMark mark = kind) (hkind : kind ≠ .unknown)
    (hlen : (mark :: rest).length = kind.span) (hleft : kind.check? (mark :: rest) ≠ some 0)
    (tail : List UInt8) :
    ∃ r, classify? (mark :: rest ++ tail) = some r ∧ r.isIntact = some false := by
  obtain ⟨check, hcheck⟩ := RecordKind.exists_check?_eq hkind (mark :: rest)
  obtain ⟨r, hr, hsame⟩ := exists_classify?_append hlen tail
  obtain ⟨_, _, hbytes, hmark', -⟩ := parts_of_classify? hr
  obtain ⟨rfl, -⟩ := List.cons.inj hbytes
  obtain ⟨-, hcheck'⟩ := hsame (hmark'.trans hmark)
  refine ⟨r, hr, isIntact_eq_some_false_of_ne (hcheck'.trans hcheck) fun hzero => hleft ?_⟩
  rw [hcheck, hzero]

/-- A body with the check bytes that a controller writes after it is an
intact record. -/
theorem exists_isIntact {mark : UInt8} {rest : List UInt8} {kind : RecordKind}
    (hmark : RecordKind.ofMark mark = kind) (hkind : kind ≠ .unknown)
    (hlen : (mark :: rest).length = kind.bodyLength) (tail : List UInt8) :
    ∃ r, classify? (mark :: rest ++ checkBytes (mark :: rest) ++ tail) = some r
      ∧ r.kind = kind ∧ r.isIntact = some true := by
  have hfull : (mark :: rest ++ checkBytes (mark :: rest)).length = kind.span := by
    rw [List.length_append, RecordKind.length_checkBytes, hmark, hlen]
    cases kind <;> rfl
  have hzero := (RecordKind.check?_append_eq_zero_iff mark rest
    (RecordKind.length_checkBytes mark rest)).mpr ⟨hmark ▸ hkind, rfl⟩
  rw [hmark] at hzero
  obtain ⟨r, hr, hsame⟩ := exists_classify?_append hfull tail
  obtain ⟨_, _, hbytes, hmark', -⟩ := parts_of_classify? hr
  obtain ⟨rfl, -⟩ := List.cons.inj hbytes
  obtain ⟨hpayload, hcheck⟩ := hsame (hmark'.trans hmark)
  refine ⟨r, hr, hmark'.trans hmark, isIntact_eq_some_true_iff.mpr ⟨?_, hcheck.trans hzero⟩⟩
  rw [hpayload, hfull, hmark'.trans hmark]

end Record

/-! ## Verdicts -/

open RecordKind

/-- A complete span is a body and a stored check, and nothing is left over
it exactly if they belong together. -/
theorem check?_take_span_eq_zero_iff {mark : UInt8} {rest : List UInt8}
    (hmark : ofMark mark ≠ .unknown)
    (hlong : (ofMark mark).span ≤ (mark :: rest).length) :
    (ofMark mark).check? ((mark :: rest).take (ofMark mark).span) = some 0
      ↔ ((mark :: rest).drop (ofMark mark).bodyLength).take (ofMark mark).checkLength
        = checkBytes ((mark :: rest).take (ofMark mark).bodyLength) := by
  obtain ⟨n, hbody, hspan⟩ : ∃ n, (ofMark mark).bodyLength = n + 1
      ∧ (ofMark mark).span = n + 1 + (ofMark mark).checkLength := by
    cases ofMark mark <;> exact ⟨_, rfl, rfl⟩
  have hlen : (((mark :: rest).drop (n + 1)).take (ofMark mark).checkLength).length
      = (ofMark mark).checkLength := by
    rw [List.length_take, List.length_drop]
    omega
  rw [hbody, hspan, List.take_add, List.take_succ_cons]
  exact (check?_append_eq_zero_iff mark (rest.take n) hlen).trans (and_iff_right hmark)

/-- The verdict on the record that some bytes make: whether they reach to
the end of the span and hold the check bytes of what is ahead of them. -/
theorem isIntact_classify? (mark : UInt8) (rest : List UInt8) :
    ∃ r, Record.classify? (mark :: rest) = some r
      ∧ r.isIntact = if ofMark mark = .unknown then none else
        some (decide ((ofMark mark).span ≤ (mark :: rest).length
          ∧ ((mark :: rest).drop (ofMark mark).bodyLength).take (ofMark mark).checkLength
            = checkBytes ((mark :: rest).take (ofMark mark).bodyLength))) := by
  refine ⟨_, rfl, ?_⟩
  by_cases hmark : ofMark mark = .unknown
  · simp [Record.isIntact, hmark, check?]
  obtain ⟨check, hcheck⟩ := exists_check?_eq hmark ((mark :: rest).take (ofMark mark).span)
  simp only [Record.isIntact, hcheck, Option.map_some, if_neg hmark, List.length_take,
    ← Bool.decide_and]
  refine congrArg some (decide_eq_decide.mpr ?_)
  by_cases hlong : (ofMark mark).span ≤ (mark :: rest).length
  · rw [← check?_take_span_eq_zero_iff hmark hlong, hcheck, Option.some.injEq]
    exact and_congr_left fun _ => iff_of_true (Nat.min_eq_left hlong) hlong
  · refine iff_of_false (fun h => hlong ?_) fun h => hlong h.1
    have hmin := h.1
    omega

/-- The check that a complete mark stores at the end of its span is the one
over all that precedes it. -/
def StoredCheckAgrees (mark : UInt8) (rest : List UInt8) : Prop :=
  let bytes := mark :: rest
  (0xf8 < mark ∧ 6 ≤ bytes.length
      ∧ (bytes.drop 4).take 2
        = bigEndian (Crc16.checksum (0xa1 :: bytes.take 4)).toNat 2)
    ∨ (mark = 0xf8 ∧ 520 ≤ bytes.length
      ∧ (bytes.drop 513).take 7
        = bigEndian (Ecc56.checksum (0xa1 :: bytes.take 513)).toNat 7)

theorem storedCheckAgrees_iff {mark : UInt8} {rest : List UInt8} :
    StoredCheckAgrees mark rest ↔ ofMark mark ≠ .unknown
      ∧ (ofMark mark).span ≤ (mark :: rest).length
      ∧ ((mark :: rest).drop (ofMark mark).bodyLength).take (ofMark mark).checkLength
        = checkBytes ((mark :: rest).take (ofMark mark).bodyLength) := by
  rw [StoredCheckAgrees, ← ofMark_eq_addressMark, ← ofMark_eq_dataMark]
  cases hkind : ofMark mark with
  | unknown => simp
  | addressMark =>
      simp only [span, checkLength, bodyLength, List.take_succ_cons, checkBytes, hkind]
      simp [preamble]
  | dataMark =>
      simp only [span, checkLength, bodyLength, dataCheckLength, List.take_succ_cons,
        checkBytes, hkind]
      simp [preamble]

/-- A body that lacks nothing but its check, and the number of check bytes
it takes. -/
def IsMarkBody (body : List UInt8) (checkLength : Nat) : Prop :=
  ∃ mark rest, body = mark :: rest
    ∧ ((0xf8 < mark ∧ body.length = 4 ∧ checkLength = 2)
      ∨ (mark = 0xf8 ∧ body.length = 513 ∧ checkLength = 7))

/-- **The verdict is exact.** A record is intact if and only if it is a
complete mark with the right check stored in it, there is no verdict if and
only if it is no mark, and every other record is not intact. So a body
followed by its check bytes is an intact record, whatever comes after, and
followed by any others it is not. -/
theorem isIntact_exact :
    (∀ mark rest, ∃ r, Record.classify? (mark :: rest) = some r
      ∧ (r.isIntact = some true ↔ StoredCheckAgrees mark rest)
      ∧ (r.isIntact = none ↔ mark < 0xf8)
      ∧ (r.isIntact = some false ↔ ¬StoredCheckAgrees mark rest ∧ ¬mark < 0xf8))
    ∧ ∀ body checkLength, IsMarkBody body checkLength →
      (checkBytes body).length = checkLength
      ∧ ∀ stored tail, stored.length = checkLength →
        ∃ r, Record.classify? (body ++ stored ++ tail) = some r
          ∧ r.isIntact = some (decide (stored = checkBytes body)) := by
  refine ⟨fun mark rest => ?_, ?_⟩
  · obtain ⟨r, hr, hintact⟩ := isIntact_classify? mark rest
    refine ⟨r, hr, ?_⟩
    rw [hintact, storedCheckAgrees_iff, ← ofMark_eq_unknown]
    by_cases hmark : ofMark mark = .unknown <;> simp [hmark]
  · rintro body checkLength ⟨mark, rest, rfl, hbody⟩
    have hkind : ofMark mark ≠ .unknown ∧ (ofMark mark).checkLength = checkLength
        ∧ (ofMark mark).bodyLength = (mark :: rest).length
        ∧ (ofMark mark).span = (mark :: rest).length + checkLength := by
      rcases hbody with ⟨hmark, hlen, rfl⟩ | ⟨hmark, hlen, rfl⟩
      · rw [ofMark_eq_addressMark.mpr hmark, hlen]
        decide
      · rw [ofMark_eq_dataMark.mpr hmark, hlen]
        decide
    obtain ⟨hmark, hcheck, hlen, hspan⟩ := hkind
    refine ⟨by rw [length_checkBytes, hcheck], fun stored tail hstored => ?_⟩
    obtain ⟨r, hr, hintact⟩ := isIntact_classify? mark (rest ++ stored ++ tail)
    refine ⟨r, hr, ?_⟩
    have hwhole : mark :: (rest ++ stored ++ tail) = (mark :: rest) ++ (stored ++ tail) := by
      simp
    have hlong : (ofMark mark).span ≤ (mark :: (rest ++ stored ++ tail)).length := by
      rw [hwhole, hspan, List.length_append, List.length_append, hstored]
      omega
    rw [hintact, if_neg hmark, hwhole, hlen, List.drop_left, List.take_left, hcheck,
      ← hstored, List.take_left]
    simp only [← hwhole, hlong, true_and]

/-- The ID field of a sector with its check, with another one, and cut
short; and a byte that is no mark. -/
theorem isIntact_exact_address_mark :
    IsMarkBody [0xfe, 1, 2, 3] 2
      ∧ checkBytes [0xfe, 1, 2, 3] = [0xcd, 0x1f]
      ∧ (∃ r, Record.classify? [0xfe, 1, 2, 3, 0xcd, 0x1f, 0x55] = some r
        ∧ r.isIntact = some true)
      ∧ (∃ r, Record.classify? [0xfe, 1, 2, 3, 0xcd, 0x1e, 0x55] = some r
        ∧ r.isIntact = some false)
      ∧ (∃ r, Record.classify? [0xfe, 1, 2, 3, 0xcd] = some r ∧ r.isIntact = some false)
      ∧ ∃ r, Record.classify? [0x12, 0x34] = some r ∧ r.isIntact = none := by
  have hbody : IsMarkBody [0xfe, 1, 2, 3] 2 := ⟨0xfe, [1, 2, 3], rfl, by decide⟩
  have hcheck : checkBytes [0xfe, 1, 2, 3] = [0xcd, 0x1f] := by decide +kernel
  have hstored := (isIntact_exact.2 _ _ hbody).2
  obtain ⟨cut, hcut, -, -, hfalse⟩ := isIntact_exact.1 0xfe [1, 2, 3, 0xcd]
  obtain ⟨noise, hnoise, -, hnone, -⟩ := isIntact_exact.1 0x12 [0x34]
  refine ⟨hbody, hcheck, ?_, ?_, ⟨cut, hcut, hfalse.mpr ?_⟩,
    noise, hnoise, hnone.mpr (by decide)⟩
  · obtain ⟨r, hr, hintact⟩ := hstored [0xcd, 0x1f] [0x55] rfl
    exact ⟨r, hr, by rw [hintact, hcheck]; rfl⟩
  · obtain ⟨r, hr, hintact⟩ := hstored [0xcd, 0x1e] [0x55] rfl
    exact ⟨r, hr, by rw [hintact, hcheck]; rfl⟩
  · simp [StoredCheckAgrees]

end FluxMarks
