import SealedRecords.Proofs.Envelope.WireFormat

/-!
# Frames that are cut, and input that grows

`WireFormat` says what each answer of the reader means for one input. This file
compares the answers for two inputs, one the beginning of the other. The number
of bytes that a frame needs does not change once the header is there:

> `neededSize_append`: bytes behind a whole header do not change what it
> declares.

Hence a sealed frame that loses bytes at its end is unframed, refused, or
sealed under the same reference, and an input that was refused is refused with
the same number until exactly that many bytes are there:

> `decode_cut`: the answer for every beginning of a sealed frame.

> `decode_grown`: the answer when bytes are added to a refused input.
-/

namespace SealedRecords

namespace Envelope

/-! ## The header of a longer input -/

theorem declaredSize_append {b : Bytes} (h : headerSize ≤ b.length) (s : Bytes) :
    declaredSize (b ++ s) = declaredSize b := by
  have hm : magic.length ≤ b.length := Nat.le_trans (by decide) h
  have hw : 4 ≤ (b.drop magic.length).length := by
    rw [List.length_drop]
    exact Nat.le_sub_of_add_le' h
  unfold declaredSize
  rw [List.drop_append_of_le_length hm, List.take_append_of_le_length hw]

/-- Once the header is there, more bytes do not change how many the frame needs. -/
theorem neededSize_append {b : Bytes} (h : headerSize ≤ b.length) (s : Bytes) :
    neededSize (b ++ s) = neededSize b := by
  have hlong : headerSize ≤ (b ++ s).length := by
    rw [List.length_append]
    exact Nat.le_add_right_of_le h
  rw [neededSize_of_header hlong, neededSize_of_header h, declaredSize_append h]

theorem neededSize_frame {ref : Bytes} (hs : ref.length ≤ maxKeyRefSize) (body : Bytes) :
    neededSize (frame ref body) = headerSize + ref.length := by
  have hlong : headerSize ≤ (frame ref body).length := by
    rw [length_frame]
    omega
  have hd : declaredSize (frame ref body) = ref.length := by
    unfold frame
    rw [List.append_assoc, declaredSize_header (Bytes.length_toWord _)]
    exact Bytes.ofWord_toWord (Nat.lt_succ_of_le hs)
  rw [neededSize_of_header hlong, hd]

/-! ## The beginnings of a frame -/

/-- The beginning of a frame has the magic as soon as it is long enough. -/
theorem magic_prefix_of_cut {ref body p : Bytes} (hp : p <+: frame ref body)
    (h : magic.length ≤ p.length) : magic <+: p :=
  List.prefix_of_prefix_length_le (magic_prefix_frame ref body) hp h

theorem not_magic_prefix_of_short {p : Bytes} (h : p.length < magic.length) : ¬ magic <+: p :=
  fun hm => Nat.not_lt.mpr hm.length_le h

/-- The beginning of a frame that has the header needs what the whole frame declares. -/
theorem neededSize_of_cut {ref body p : Bytes} (hs : ref.length ≤ maxKeyRefSize)
    (hp : p <+: frame ref body) (h : headerSize ≤ p.length) :
    neededSize p = headerSize + ref.length := by
  obtain ⟨rest, hrest⟩ := hp
  rw [← neededSize_append h rest, hrest, neededSize_frame hs]

/-- The beginning of a frame that has the reference is the frame of a beginning of the body. -/
theorem eq_frame_of_cut {ref body p : Bytes} (hp : p <+: frame ref body)
    (h : headerSize + ref.length ≤ p.length) :
    p = frame ref (body.take (p.length - (headerSize + ref.length))) := by
  have hhead : (magic ++ Bytes.toWord ref.length ++ ref).length = headerSize + ref.length := by
    simp only [List.length_append, Bytes.length_toWord]
    rfl
  have htake : p = (frame ref body).take p.length := List.prefix_iff_eq_take.mp hp
  have hcut : (frame ref body).take p.length
      = frame ref (body.take (p.length - (headerSize + ref.length))) := by
    unfold frame
    rw [List.take_append, hhead, List.take_of_length_le (by omega)]
  exact htake.trans hcut

/-- The answer for every beginning of a sealed frame, by its length. -/
theorem decode_cut {ref body p : Bytes} (hne : ref ≠ []) (hs : ref.length ≤ maxKeyRefSize)
    (hp : p <+: frame ref body) :
    (p.length < magic.length ∧ decode p = .ok (.raw p)) ∨
      (magic.length ≤ p.length ∧ p.length < headerSize ∧
        decode p = .error (.malformed headerSize p.length)) ∨
      (headerSize ≤ p.length ∧ p.length < headerSize + ref.length ∧
        decode p = .error (.malformed (headerSize + ref.length) p.length)) ∨
      (headerSize + ref.length ≤ p.length ∧
        decode p = .ok (.sealed ⟨ref⟩ (body.take (p.length - (headerSize + ref.length))))) := by
  rcases Nat.lt_or_ge p.length magic.length with hmagic | hmagic
  · exact Or.inl ⟨hmagic, decode_of_not_magic (not_magic_prefix_of_short hmagic)⟩
  · have hm : magic <+: p := magic_prefix_of_cut hp hmagic
    rcases Nat.lt_or_ge p.length headerSize with hhead | hhead
    · exact Or.inr (Or.inl ⟨hmagic, hhead, decode_of_short hm hhead⟩)
    · have hneeded := neededSize_of_cut hs hp hhead
      rcases Nat.lt_or_ge p.length (headerSize + ref.length) with href | href
      · have hd := decode_of_lacking hm (by rw [hneeded]; exact href)
        rw [hneeded] at hd
        exact Or.inr (Or.inr (Or.inl ⟨hhead, href, hd⟩))
      · have hd := decode_frame hne hs (body.take (p.length - (headerSize + ref.length)))
        rw [← eq_frame_of_cut hp href] at hd
        exact Or.inr (Or.inr (Or.inr ⟨href, hd⟩))

/-! ## Input that grows -/

/-- A whole header that declares a reference is sealed as soon as the reference is there. -/
theorem decode_of_enough {b : Bytes} (hm : magic <+: b) (h : headerSize < neededSize b)
    (hl : neededSize b ≤ b.length) :
    ∃ r c, decode b = .ok (.sealed r c) ∧ headerSize + r.size = neededSize b := by
  rcases frame_cases b with hn | ⟨-, hlack⟩ | ⟨ref, body, hs, rfl⟩
  · exact absurd hm hn
  · exact absurd hlack (Nat.not_lt.mpr hl)
  · have hneeded := neededSize_frame hs body
    have hne : ref ≠ [] := by
      rintro rfl
      rw [hneeded] at h
      exact Nat.lt_irrefl _ h
    exact ⟨⟨ref⟩, body, decode_frame hne hs body, hneeded.symm⟩

/-- The answer when bytes are added to an input that was refused. -/
theorem decode_grown {b : Bytes} {n m : Nat} (h : decode b = .error (.malformed n m)) (s : Bytes) :
    ((b ++ s).length < n ∧ decode (b ++ s) = .error (.malformed n (b ++ s).length)) ∨
      (n ≤ (b ++ s).length ∧ headerSize ≤ b.length ∧
        ∃ r c, decode (b ++ s) = .ok (.sealed r c) ∧ headerSize + r.size = n) ∨
      (n ≤ (b ++ s).length ∧ b.length < headerSize ∧
        ∀ m', decode (b ++ s) ≠ .error (.malformed headerSize m')) := by
  obtain ⟨hm, hlack, he⟩ := decode_eq_error_iff.mp h
  obtain ⟨rfl, rfl⟩ := EnvelopeError.malformed.inj he
  have hm' : magic <+: b ++ s := hm.trans (List.prefix_append b s)
  rcases Nat.lt_or_ge b.length headerSize with hshort | hhead
  · -- without a whole header the number asked for is the size of a header
    rw [neededSize_of_short hshort]
    rcases Nat.lt_or_ge (b ++ s).length headerSize with hstill | henough
    · exact Or.inl ⟨hstill, decode_of_short hm' hstill⟩
    · refine Or.inr (Or.inr ⟨henough, hshort, fun m' hbad => ?_⟩)
      obtain ⟨-, hlt, heq⟩ := decode_eq_error_iff.mp hbad
      obtain ⟨hsize, -⟩ := EnvelopeError.malformed.inj heq
      rw [← hsize] at hlt
      exact Nat.not_lt.mpr henough hlt
  · -- with a whole header the number asked for is the same for both inputs
    have hneeded := neededSize_append hhead s
    rcases Nat.lt_or_ge (b ++ s).length (neededSize b) with hstill | henough
    · have hd := decode_of_lacking hm' (by rw [hneeded]; exact hstill)
      rw [hneeded] at hd
      exact Or.inl ⟨hstill, hd⟩
    · obtain ⟨r, c, hd, hr⟩ := decode_of_enough hm'
        (by rw [hneeded]; exact Nat.lt_of_le_of_lt hhead hlack)
        (by rw [hneeded]; exact henough)
      exact Or.inr (Or.inl ⟨henough, hhead, r, c, hd, hr.trans hneeded⟩)

/-- **Cutting a frame never changes what it is.** A sealed frame that is cut anywhere is unframed
below six bytes, refused below ten with ten asked for, refused below the end of the reference
with exactly that end asked for, and from there on sealed under the same reference with the
bytes of the ciphertext that are left; no cut reads as a frame in clear or under another
reference. In the other direction an input that was refused stays refused with the same number
until that many bytes are there. From a whole header on it is then sealed with a reference of
the declared length; before that, ten bytes are never asked for again. -/
theorem truncation_and_extension :
    (∀ (k : KeyRef) (c : Bytes), k.isEmpty = false → k.size ≤ maxKeyRefSize →
      ∃ f, encodeSealed k c [] = (.ok (), f) ∧ ∀ p, p <+: f →
        (p.length < 6 → decode p = .ok (.raw p)) ∧
        (6 ≤ p.length → p.length < 10 → decode p = .error (.malformed 10 p.length)) ∧
        (10 ≤ p.length → p.length < 10 + k.size →
          decode p = .error (.malformed (10 + k.size) p.length)) ∧
        (10 + k.size ≤ p.length →
          decode p = .ok (.sealed k (c.take (p.length - (10 + k.size))))) ∧
        (∀ body, decode p ≠ .ok (.plain body)) ∧
        ∀ r body, decode p = .ok (.sealed r body) → r = k ∧ body <+: c) ∧
    ∀ (b s : Bytes) (n m : Nat), decode b = .error (.malformed n m) →
      ((b ++ s).length < n → decode (b ++ s) = .error (.malformed n (b ++ s).length)) ∧
      (n ≤ (b ++ s).length → 10 ≤ b.length →
        ∃ r c, decode (b ++ s) = .ok (.sealed r c) ∧ r.size = n - 10) ∧
      (n ≤ (b ++ s).length → b.length < 10 →
        ∀ m', decode (b ++ s) ≠ .error (.malformed 10 m')) := by
  have h6 : magic.length = 6 := rfl
  have h10 : headerSize = 10 := rfl
  constructor
  · intro k c hne hs
    refine ⟨frame k.bytes c, encodeSealed_of_fits hne hs c [], fun p hp => ?_⟩
    have hk : k.bytes.length = k.size := rfl
    have hcut := decode_cut (not_isEmpty_iff.mp hne) hs hp
    rw [h6, h10, hk] at hcut
    rcases hcut with ⟨hl, hd⟩ | ⟨hl, hl', hd⟩ | ⟨hl, hl', hd⟩ | ⟨hl, hd⟩
    · rw [hd]
      refine ⟨fun _ => rfl, fun h => ?_, fun h => ?_, fun h => ?_, by simp, by simp⟩ <;> omega
    · rw [hd]
      refine ⟨fun h => ?_, fun _ _ => rfl, fun h => ?_, fun h => ?_, by simp, by simp⟩ <;> omega
    · rw [hd]
      refine ⟨fun h => ?_, fun _ h => ?_, fun _ _ => rfl, fun h => ?_, by simp, by simp⟩ <;> omega
    · rw [hd]
      refine ⟨fun h => ?_, fun _ h => ?_, fun _ h => ?_, fun _ => rfl, by simp, ?_⟩
      · omega
      · omega
      · omega
      · rintro r body ⟨⟩
        exact ⟨rfl, List.take_prefix _ _⟩
  · intro b s n m h
    have hgrown := decode_grown h s
    rw [h10] at hgrown
    rcases hgrown with ⟨hl, hd⟩ | ⟨hl, hb, r, c, hd, hr⟩ | ⟨hl, hb, hd⟩
    · exact ⟨fun _ => hd, fun h => by omega, fun h => by omega⟩
    · exact ⟨fun h => by omega, fun _ _ => ⟨r, c, hd, by omega⟩, fun _ h => by omega⟩
    · exact ⟨fun h => by omega, fun _ h => by omega, fun _ _ => hd⟩

/-- A frame with a reference of two bytes, cut inside the reference, and grown again by bytes
that were not in it. -/
theorem truncation_and_extension_of_two_bytes :
    KeyRef.isEmpty ⟨[0x4B, 0x31]⟩ = false ∧ KeyRef.size ⟨[0x4B, 0x31]⟩ ≤ maxKeyRefSize ∧
    decode (magic ++ [0, 0, 0, 2, 0x4B]) = .error (.malformed 12 11) ∧
    ∃ r c, decode (magic ++ [0, 0, 0, 2, 0x4B] ++ [0x32, 7]) = .ok (.sealed r c) ∧ r.size = 2 := by
  have hne : KeyRef.isEmpty ⟨[0x4B, 0x31]⟩ = false := rfl
  have hs : KeyRef.size ⟨[0x4B, 0x31]⟩ ≤ maxKeyRefSize := by decide
  obtain ⟨f, hf, hcuts⟩ := truncation_and_extension.1 ⟨[0x4B, 0x31]⟩ [7] hne hs
  have hf' : f = magic ++ [0, 0, 0, 2, 0x4B] ++ [0x31, 7] := (congrArg Prod.snd hf).symm
  have hcut := (hcuts (magic ++ [0, 0, 0, 2, 0x4B]) (hf' ▸ List.prefix_append _ _)).2.2.1
    (by decide) (by decide)
  have hgrown := (truncation_and_extension.2 (magic ++ [0, 0, 0, 2, 0x4B]) [0x32, 7] 12 11 hcut).2.1
    (by decide) (by decide)
  exact ⟨hne, hs, hcut, hgrown⟩

end Envelope

end SealedRecords
