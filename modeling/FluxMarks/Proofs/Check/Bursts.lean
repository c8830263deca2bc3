import FluxMarks.Proofs.Check.Serial
import FluxMarks.Proofs.Record

/-!
# Bursts

Damage to a medium strikes bits that lie together. A check is as good
against it as its register is wide: two messages that differ only within so
many bits in a row have different remainders (`Divisor.update_ne_of_isBurst`).
Up to the first bit that is struck the registers are the same, the struck
bits fit into the register and so make a difference, and no bit after them
takes a difference away. So a record that was intact is not after a burst,
unless it has become a record of another kind.
-/

namespace FluxMarks

theorem messageBits_injective {xs ys : List UInt8} (h : messageBits xs = messageBits ys) :
    xs = ys := by
  have hread (bytes : List UInt8) : assemble (false :: messageBits bytes ++ []) = bytes :=
    assemble_recordBits_append false bytes (by decide)
  rw [← hread xs, h, hread ys]

/-- Two messages of one length that differ, and only within so many bits in
a row. -/
structure IsBurst (width : Nat) (xs ys : List UInt8) : Prop where
  length_eq : xs.length = ys.length
  ne : xs ≠ ys
  within : ∃ start, ∀ i, (messageBits xs)[i]? ≠ (messageBits ys)[i]? →
    start ≤ i ∧ i < start + width

/-- There are no bits to look at after the last one. -/
theorem IsBurst.of_forall_lt {width : Nat} {xs ys : List UInt8} (start : Nat)
    (hlen : xs.length = ys.length) (hne : xs ≠ ys)
    (h : ∀ i < 8 * xs.length, (messageBits xs)[i]? ≠ (messageBits ys)[i]? →
      start ≤ i ∧ i < start + width) : IsBurst width xs ys where
  length_eq := hlen
  ne := hne
  within := by
    refine ⟨start, fun i hbit => ?_⟩
    rcases Nat.lt_or_ge i (8 * xs.length) with hlt | hge
    · exact h i hlt hbit
    · rw [List.getElem?_eq_none (length_messageBits xs ▸ hge),
        List.getElem?_eq_none (length_messageBits ys ▸ hlen ▸ hge)] at hbit
      exact absurd rfl hbit

/-- A byte ahead of both messages moves the burst on. -/
theorem IsBurst.cons {width : Nat} {xs ys : List UInt8} (h : IsBurst width xs ys) (byte : UInt8) :
    IsBurst width (byte :: xs) (byte :: ys) where
  length_eq := congrArg (· + 1) h.length_eq
  ne := fun heq => h.ne (List.cons.inj heq).2
  within := by
    obtain ⟨start, hwithin⟩ := h.within
    refine ⟨8 + start, fun i hne => ?_⟩
    have hlen : (byteBits byte).length = 8 := length_lowBits byte 8
    rw [messageBits, messageBits, List.flatMap_cons, List.flatMap_cons] at hne
    rcases Nat.lt_or_ge i 8 with hlt | hge
    · rw [List.getElem?_append_left (hlen ▸ hlt), List.getElem?_append_left (hlen ▸ hlt)] at hne
      exact absurd rfl hne
    · rw [List.getElem?_append_right (hlen ▸ hge), List.getElem?_append_right (hlen ▸ hge),
        hlen] at hne
      have := hwithin (i - 8) hne
      omega

/-- The bits of two such messages are the same up to a stretch in which they
differ, and after it. -/
theorem IsBurst.exists_stretch {width : Nat} {xs ys : List UInt8} (h : IsBurst width xs ys) :
    ∃ before old new after, messageBits xs = before ++ (old ++ after)
      ∧ messageBits ys = before ++ (new ++ after)
      ∧ old.length = new.length ∧ old.length ≤ width ∧ old ≠ new := by
  obtain ⟨start, hwithin⟩ := h.within
  have hlen : (messageBits xs).length = (messageBits ys).length := by
    rw [length_messageBits, length_messageBits, h.length_eq]
  have hsame {i : Nat} (hi : ¬(start ≤ i ∧ i < start + width)) :
      (messageBits xs)[i]? = (messageBits ys)[i]? :=
    Decidable.not_not.mp fun hne => hi (hwithin i hne)
  have hbefore : (messageBits xs).take start = (messageBits ys).take start := by
    refine List.ext_getElem? fun i => ?_
    rw [List.getElem?_take, List.getElem?_take]
    split
    · exact hsame (by omega)
    · rfl
  have hafter : ((messageBits xs).drop start).drop width
      = ((messageBits ys).drop start).drop width := by
    refine List.ext_getElem? fun i => ?_
    simp only [List.getElem?_drop]
    exact hsame (by omega)
  refine ⟨(messageBits xs).take start, ((messageBits xs).drop start).take width,
    ((messageBits ys).drop start).take width, ((messageBits xs).drop start).drop width, ?_, ?_,
    ?_, List.length_take_le .., fun heq => h.ne (messageBits_injective ?_)⟩
  · rw [List.take_append_drop, List.take_append_drop]
  · rw [hafter, hbefore, List.take_append_drop, List.take_append_drop]
  · simp only [List.length_take, List.length_drop, hlen]
  · rw [← List.take_append_drop start (messageBits xs), ← List.take_append_drop width
      ((messageBits xs).drop start), hbefore, hafter, heq, List.take_append_drop,
      List.take_append_drop]

/-- A division tells two messages apart that differ by a burst no wider than
its register. -/
theorem Divisor.update_ne_of_isBurst {w : Nat} (d : Divisor w) (hw : 8 ≤ w) (r : BitVec w)
    {xs ys : List UInt8} (h : IsBurst w xs ys) : d.update r xs ≠ d.update r ys := by
  obtain ⟨before, old, new, after, hxs, hys, hlen, hwidth, hne⟩ := h.exists_stretch
  intro heq
  rw [d.update_eq_takeBits hw, d.update_eq_takeBits hw, hxs, hys, takeBits_append,
    takeBits_append, takeBits_append, takeBits_append] at heq
  exact hne (d.takeBits_right_injective hlen hwidth (d.takeBits_left_injective heq))

/-! ## Checks -/

theorem Crc16.checksum_ne_of_isBurst {xs ys : List UInt8} (h : IsBurst 16 xs ys) :
    checksum xs ≠ checksum ys := by
  rw [checksum_eq, checksum_eq]
  exact divisor.update_ne_of_isBurst (by decide) _ h

theorem Ecc56.checksum_ne_of_isBurst {xs ys : List UInt8} (h : IsBurst 56 xs ys) :
    checksum xs ≠ checksum ys := by
  rw [Ne, checksum_inj]
  exact divisor.update_ne_of_isBurst (by decide) _ h

/-! ## Records -/

namespace RecordKind

/-- The check of a mark tells bursts apart that are no wider than itself. -/
theorem check?_ne_of_isBurst {kind : RecordKind} (hkind : kind ≠ .unknown)
    {xs ys : List UInt8} (h : IsBurst (8 * kind.checkLength) xs ys) :
    kind.check? xs ≠ kind.check? ys := by
  intro heq
  cases kind with
  | unknown => exact hkind rfl
  | addressMark =>
      exact Crc16.checksum_ne_of_isBurst (h.cons preamble)
        (BitVec.toNat_inj.mp (Option.some.inj heq))
  | dataMark =>
      exact Ecc56.checksum_ne_of_isBurst (h.cons preamble)
        (BitVec.toNat_inj.mp (Option.some.inj heq))

end RecordKind

/-- **A check tells every burst that is no wider than itself.** Two messages
that differ only within sixteen bits in a row have different CRCs, and two
that differ only within fifty-six have different sector checks. So where the
bytes that the check of an intact record covers are struck by such a burst,
there is a record still, and it is not intact, if it is one of the same kind
at all. -/
theorem burst_detected :
    (∀ xs ys, IsBurst 16 xs ys → Crc16.checksum xs ≠ Crc16.checksum ys)
    ∧ (∀ xs ys, IsBurst 56 xs ys → Ecc56.checksum xs ≠ Ecc56.checksum ys)
    ∧ ∀ bytes r, Record.classify? bytes = some r → r.isIntact = some true →
      ∀ width, r.kind = .addressMark ∧ width = 16 ∨ r.kind = .dataMark ∧ width = 56 →
      ∀ payload, IsBurst width r.payload payload →
        bytes = r.payload ++ bytes.drop r.kind.span
        ∧ ∃ r', Record.classify? (payload ++ bytes.drop r.kind.span) = some r'
          ∧ (r'.kind = r.kind → r'.payload = payload ∧ r'.isIntact = some false) := by
  refine ⟨fun _ _ => Crc16.checksum_ne_of_isBurst, fun _ _ => Ecc56.checksum_ne_of_isBurst, ?_⟩
  intro bytes r hr hintact width hwidth payload hburst
  obtain ⟨hfull, hzero⟩ := Record.isIntact_eq_some_true_iff.mp hintact
  obtain ⟨-, -, -, -, -, hpayload, hcheck⟩ := Record.parts_of_classify? hr
  obtain ⟨hmark, hwidth⟩ : r.kind ≠ .unknown ∧ width = 8 * r.kind.checkLength := by
    rcases hwidth with ⟨hkind, rfl⟩ | ⟨hkind, rfl⟩ <;> rw [hkind] <;> decide
  have hlen : payload.length = r.kind.span := hburst.length_eq.symm.trans hfull
  have hstruck := RecordKind.check?_ne_of_isBurst hmark (hwidth ▸ hburst)
  rw [← hcheck, hzero] at hstruck
  obtain ⟨check, hsome⟩ := RecordKind.exists_check?_eq hmark payload
  have hne : check ≠ 0 := fun hzero' => hstruck (by rw [hsome, hzero'])
  refine ⟨by rw [hpayload, List.take_append_drop], ?_⟩
  obtain ⟨r', hr', hsame⟩ := Record.exists_classify?_append hlen (bytes.drop r.kind.span)
  refine ⟨r', hr', fun hkind => ?_⟩
  obtain ⟨hpayload', hcheck'⟩ := hsame hkind
  exact ⟨hpayload', Record.isIntact_eq_some_false_of_ne (hcheck'.trans hsome) hne⟩

/-- Sixteen bits struck across the last header byte and the check of an ID
field, and fifty-six in a message of zeros, of which the first and the last
byte keep half. -/
theorem burst_detected_across_bytes :
    let field : List UInt8 := [0xfe, 1, 2, 3, 0xcd, 0x1f]
    let struck : List UInt8 := [0xfe, 1, 2, 0x0c, 0x32, 0xef]
    let zeros : List UInt8 := [0, 0, 0, 0, 0, 0, 0, 0]
    let ones : List UInt8 := [0x0f, 0xff, 0xff, 0xff, 0xff, 0xff, 0xff, 0xf0]
    IsBurst 16 field struck ∧ IsBurst 56 zeros ones
      ∧ Crc16.checksum field ≠ Crc16.checksum struck
      ∧ Ecc56.checksum zeros ≠ Ecc56.checksum ones
      ∧ (∃ r, Record.classify? (field ++ [0x55]) = some r ∧ r.isIntact = some true)
      ∧ ∃ r', Record.classify? (struck ++ [0x55]) = some r' ∧ r'.isIntact = some false := by
  intro field struck zeros ones
  have hfield : IsBurst 16 field struck := .of_forall_lt 28 rfl (by decide) (by decide)
  have hzeros : IsBurst 56 zeros ones := .of_forall_lt 4 rfl (by decide) (by decide)
  let intact : Record := { kind := .addressMark, length := 7, check := some 0, payload := field }
  have hintact : Record.classify? (field ++ [0x55]) = some intact := by decide +kernel
  obtain ⟨hcrc, hecc, hrecord⟩ := burst_detected
  obtain ⟨-, r', hr', hfalse⟩ :=
    hrecord _ intact hintact rfl 16 (Or.inl ⟨rfl, rfl⟩) struck hfield
  have hkind : r'.kind = .addressMark := by
    obtain ⟨mark, rest, hbytes, hkind, -⟩ := Record.parts_of_classify? hr'
    obtain rfl := (List.cons.inj hbytes).1
    exact hkind
  exact ⟨hfield, hzeros, hcrc _ _ hfield, hecc _ _ hzeros, ⟨intact, hintact, rfl⟩, r', hr',
    (hfalse hkind).2⟩

end FluxMarks
