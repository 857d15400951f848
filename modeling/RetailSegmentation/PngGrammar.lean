import RetailSegmentation.ImageUploads

/-! The PNG files that an upload may hold: the walk over the chunks accepts exactly the byte strings of a
grammar. -/

namespace RetailSegmentation.Uploads

/-- A chunk as it is written: four bytes of length, four of kind, the body, and four of its checksum. -/
structure Chunk where
  length : List UInt8
  kind : List UInt8
  body : List UInt8
  crc : List UInt8
  hlength : length.length = 4
  hkind : kind.length = 4
  hcrc : crc.length = 4
  hbody : bigEndian length = body.length

def Chunk.bytes (c : Chunk) : List UInt8 := c.length ++ c.kind ++ c.body ++ c.crc

def Chunk.Sound (c : Chunk) : Prop := crc32 (c.kind ++ c.body) = bigEndian c.crc

instance (c : Chunk) : Decidable c.Sound := inferInstanceAs (Decidable (_ = _))

/-- The header chunk: a width and a height within bounds, and five more bytes. -/
structure Header (c : Chunk) : Prop where
  kind : c.kind = ihdr
  length : c.body.length = 13
  width : 1 ≤ bigEndian (slice c.body 0 4) ∧ bigEndian (slice c.body 0 4) ≤ maxImageSidePixels
  height : 1 ≤ bigEndian (slice c.body 4 8) ∧ bigEndian (slice c.body 4 8) ≤ maxImageSidePixels

/-- Chunks up to the last one, which ends the data. -/
structure Ending (bytes : List UInt8) (chunks : List Chunk) (last : Chunk) : Prop where
  split : bytes = chunks.flatMap Chunk.bytes ++ last.bytes
  sound : ∀ c ∈ chunks, c.Sound ∧ c.kind ≠ iend
  lastSound : last.Sound
  lastKind : last.kind = iend

/-- What follows the signature in a PNG file: a header, chunks, and the last chunk. -/
def Png (bytes : List UInt8) : Prop :=
  ∃ (header : Chunk) (rest : List UInt8) (chunks : List Chunk) (last : Chunk),
    bytes = header.bytes ++ rest ∧ header.Sound ∧ Header header ∧ Ending rest chunks last

/-! ### One step of the walk -/

theorem slice_append (before middle after : List UInt8) {stop : ℕ} (hstop : stop = before.length + middle.length) :
    slice (before ++ (middle ++ after)) before.length stop = middle := by
  unfold slice
  rw [hstop, ← List.append_assoc, ← List.length_append, List.take_left, List.drop_left]

theorem length_bytes (c : Chunk) : c.bytes.length = c.body.length + 12 := by
  unfold Chunk.bytes
  rw [List.length_append, List.length_append, List.length_append, c.hlength, c.hkind, c.hcrc]
  omega

/-- What the walk does after a sound chunk. -/
def afterChunk (data : List UInt8) (c : Chunk) (next : ℕ) (first : Bool) : Except Raised Unit :=
  if first then do
    checkHeader c.kind c.body c.body.length
    walk data next false
  else if c.kind = iend then
    if next ≠ data.length then .error trailing else .ok ()
  else walk data next false

theorem walk_chunk (before after : List UInt8) (c : Chunk) (first : Bool) :
    walk (before ++ (c.bytes ++ after)) before.length first =
      if c.Sound then afterChunk (before ++ (c.bytes ++ after)) c (before.length + c.bytes.length) first
      else .error malformed := by
  have hlen := length_bytes c
  have hhead : slice (before ++ (c.bytes ++ after)) before.length (before.length + 8) = c.length ++ c.kind := by
    have hsplit : c.bytes ++ after = (c.length ++ c.kind) ++ (c.body ++ c.crc ++ after) := by simp [Chunk.bytes]
    rw [hsplit]
    exact slice_append before (c.length ++ c.kind) _ (by simp [c.hlength, c.hkind])
  have hbody : slice (before ++ (c.bytes ++ after)) (before.length + 8)
    (before.length + 8 + c.body.length) = c.body := by
    have hsplit : before ++ (c.bytes ++ after) = (before ++ c.length ++ c.kind) ++ (c.body ++ (c.crc ++ after)) := by
      simp [Chunk.bytes]
    have hstart : before.length + 8 = (before ++ c.length ++ c.kind).length := by simp [c.hlength, c.hkind]
    rw [hsplit, hstart]
    exact slice_append _ c.body _ rfl
  have hcrc : slice (before ++ (c.bytes ++ after)) (before.length + 8 + c.body.length)
      (before.length + 8 + c.body.length + 4) = c.crc := by
    have hsplit : before ++ (c.bytes ++ after) = (before ++ c.length ++ c.kind ++ c.body) ++ (c.crc ++ after) := by
      simp [Chunk.bytes]
    have hstart : before.length + 8 + c.body.length = (before ++ c.length ++ c.kind ++ c.body).length := by
      simp [c.hlength, c.hkind]
      omega
    rw [hsplit, hstart]
    exact slice_append _ c.crc _ (by rw [c.hcrc])
  have hroom : (before ++ (c.bytes ++ after)).length = before.length + c.body.length + 12 + after.length := by
    rw [List.length_append, List.length_append, hlen]
    omega
  have hunpack : unpackI4s (c.length ++ c.kind) = .ok (c.body.length, c.kind) := by
    unfold unpackI4s
    rw [if_pos (by simp [c.hlength, c.hkind]), List.take_left' c.hlength, List.drop_left' c.hlength, c.hbody]
  have hunpackCrc : unpackI c.crc = .ok (bigEndian c.crc) := if_pos c.hcrc
  rw [walk, dif_neg (by omega), hhead, hunpack]
  change (if (before ++ (c.bytes ++ after)).length < before.length + 8 + c.body.length + 4 then Except.error malformed
    else _) = _
  rw [if_neg (by omega), hbody, hcrc, hunpackCrc]
  have hnext : before.length + 8 + c.body.length + 4 = before.length + c.bytes.length := by omega
  rw [hnext]
  by_cases hsound : c.Sound
  · rw [if_pos hsound]
    exact if_neg (not_not.mpr hsound)
  · rw [if_neg hsound]
    exact if_pos hsound

theorem exists_chunk {bytes : List UInt8} (hroom : bigEndian (bytes.take 4) + 12 ≤ bytes.length) :
    ∃ (c : Chunk) (after : List UInt8), bytes = c.bytes ++ after := by
  set n := bigEndian (bytes.take 4) with hn
  refine ⟨⟨bytes.take 4, (bytes.drop 4).take 4, (bytes.drop 8).take n, (bytes.drop (8 + n)).take 4, ?_, ?_, ?_, ?_⟩,
    bytes.drop (12 + n), ?_⟩
  · rw [List.length_take]
    omega
  · rw [List.length_take, List.length_drop]
    omega
  · rw [List.length_take, List.length_drop]
    omega
  · rw [List.length_take, List.length_drop]
    omega
  · have hcrc : (bytes.drop (8 + n)).drop 4 = bytes.drop (12 + n) := by
      rw [List.drop_drop]
      congr 1
      omega
    have hbody : (bytes.drop 8).drop n = bytes.drop (8 + n) := List.drop_drop
    have hkind : (bytes.drop 4).drop 4 = bytes.drop 8 := List.drop_drop
    calc
      bytes = bytes.take 4 ++ ((bytes.drop 4).take 4 ++ ((bytes.drop 8).take n ++ ((bytes.drop (8 + n)).take 4 ++
          bytes.drop (12 + n)))) := by
        rw [← hcrc, List.take_append_drop, ← hbody, List.take_append_drop, ← hkind, List.take_append_drop,
          List.take_append_drop]
      _ = _ := by simp only [Chunk.bytes, List.append_assoc]

theorem walk_none (before : List UInt8) {bytes : List UInt8}
    (hnone : ¬ ∃ (c : Chunk) (after : List UInt8), bytes = c.bytes ++ after) (first : Bool) :
    walk (before ++ bytes) before.length first = .error malformed := by
  have hlength : (before ++ bytes).length = before.length + bytes.length := List.length_append
  by_cases hshort : bytes.length < 8
  · rw [walk, dif_pos (by omega)]
  · have hhead : slice (before ++ bytes) before.length (before.length + 8) = bytes.take 8 := by
      unfold slice
      rw [List.take_length_add_append, List.drop_left]
    have hunpack : unpackI4s (bytes.take 8) = .ok (bigEndian (bytes.take 4), (bytes.take 8).drop 4) := by
      unfold unpackI4s
      rw [if_pos (by rw [List.length_take]; omega), List.take_take]
      rfl
    have hshort' : bytes.length < bigEndian (bytes.take 4) + 12 :=
      Nat.not_le.mp fun hroom => hnone (exists_chunk hroom)
    rw [walk, dif_neg (by omega), hhead, hunpack]
    exact if_pos (by omega)

/-! ### The whole walk -/

theorem walk_of_ending (before : List UInt8) {bytes : List UInt8} {chunks : List Chunk} {last : Chunk}
    (h : Ending bytes chunks last) : walk (before ++ bytes) before.length false = .ok () := by
  induction chunks generalizing before bytes with
  | nil =>
      obtain ⟨hsplit, -, hsound, hkind⟩ := h
      have hlast : bytes = last.bytes ++ [] := by rw [hsplit, List.append_nil]; rfl
      rw [hlast, walk_chunk, if_pos hsound]
      unfold afterChunk
      rw [if_neg Bool.false_ne_true, if_pos hkind, if_neg]
      simp
  | cons c chunks ih =>
      obtain ⟨hsplit, hsound, hlast, hkind⟩ := h
      have hrest : Ending (chunks.flatMap Chunk.bytes ++ last.bytes) chunks last :=
        ⟨rfl, fun d hd => hsound d (List.mem_cons_of_mem c hd), hlast, hkind⟩
      have hbytes : bytes = c.bytes ++ (chunks.flatMap Chunk.bytes ++ last.bytes) := by
        rw [hsplit, List.flatMap_cons, List.append_assoc]
      obtain ⟨hc, hnot⟩ := hsound c List.mem_cons_self
      rw [hbytes, walk_chunk, if_pos hc]
      unfold afterChunk
      rw [if_neg Bool.false_ne_true, if_neg hnot, ← List.append_assoc, ← List.length_append]
      exact ih (before ++ c.bytes) hrest

/-- Past the header, the walk accepts chunks up to a last one, and refuses everything else. -/
theorem walk_false (before bytes : List UInt8) :
    (walk (before ++ bytes) before.length false = .ok () ∧ ∃ chunks last, Ending bytes chunks last) ∨
      ∃ message, walk (before ++ bytes) before.length false = .error (.uploadRejected message) := by
  induction hsize : bytes.length using Nat.strongRecOn generalizing before bytes with
  | _ size ih =>
      by_cases hchunk : ∃ (c : Chunk) (after : List UInt8), bytes = c.bytes ++ after
      · obtain ⟨c, after, rfl⟩ := hchunk
        have hlength := length_bytes c
        rw [walk_chunk]
        by_cases hsound : c.Sound
        · rw [if_pos hsound]
          unfold afterChunk
          rw [if_neg Bool.false_ne_true]
          by_cases hkind : c.kind = iend
          · rw [if_pos hkind]
            by_cases hend : before.length + c.bytes.length = (before ++ (c.bytes ++ after)).length
            · have hafter : after = [] := by
                rw [List.length_append, List.length_append] at hend
                exact List.length_eq_zero_iff.mp (by omega)
              rw [if_neg (not_not.mpr hend)]
              exact .inl ⟨rfl, [], c, by rw [hafter, List.append_nil]; rfl, nofun, hsound, hkind⟩
            · rw [if_pos hend]
              exact .inr ⟨_, rfl⟩
          · rw [if_neg hkind, ← List.append_assoc, ← List.length_append]
            rw [List.length_append] at hsize
            rcases ih after.length (by omega) (before ++ c.bytes) after rfl with ⟨hok, chunks, last,
              hending⟩ | hrejected
            · obtain ⟨hsplit, hsounds, hlast, hlastKind⟩ := hending
              refine .inl ⟨hok, c :: chunks, last, ?_, ?_, hlast, hlastKind⟩
              · rw [hsplit, List.flatMap_cons, List.append_assoc]
              · exact List.forall_mem_cons.mpr ⟨⟨hsound, hkind⟩, hsounds⟩
            · exact .inr hrejected
        · rw [if_neg hsound]
          exact .inr ⟨_, rfl⟩
      · rw [walk_none before hchunk]
        exact .inr ⟨_, rfl⟩

theorem checkHeader_cases (c : Chunk) :
    (checkHeader c.kind c.body c.body.length = .ok () ∧ Header c) ∨
      (¬ Header c ∧ ∃ message, checkHeader c.kind c.body c.body.length = .error (.uploadRejected message)) := by
  unfold checkHeader
  by_cases hkind : c.kind ≠ ihdr ∨ c.body.length ≠ 13
  · rw [if_pos hkind]
    exact .inr ⟨fun h => hkind.elim (fun hne => hne h.kind) fun hne => hne h.length, _, rfl⟩
  · push Not at hkind
    obtain ⟨hkind, hlength⟩ := hkind
    have hslice : (slice c.body 0 8).length = 8 := by simp [slice, hlength]
    have hwidth : (slice c.body 0 8).take 4 = slice c.body 0 4 := by simp [slice, List.take_take]
    have hheight : (slice c.body 0 8).drop 4 = slice c.body 4 8 := by simp [slice]
    rw [if_neg (by simp [hkind, hlength]), unpackII, if_pos hslice, hwidth, hheight]
    by_cases hsides : ¬ (0 < bigEndian (slice c.body 0 4) ∧ bigEndian (slice c.body 0 4) ≤ maxImageSidePixels) ∨
        ¬ (0 < bigEndian (slice c.body 4 8) ∧ bigEndian (slice c.body 4 8) ≤ maxImageSidePixels)
    · exact .inr ⟨fun h => hsides.elim (fun hne => hne h.width) fun hne => hne h.height, _, if_pos hsides⟩
    · refine .inl ⟨if_neg hsides, hkind, hlength, ?_, ?_⟩
      · exact not_not.mp fun hne => hsides (.inl hne)
      · exact not_not.mp fun hne => hsides (.inr hne)

theorem checkPng_of_png {bytes : List UInt8} (h : Png bytes) : checkPng (pngSignature ++ bytes) = .ok () := by
  obtain ⟨c, rest, chunks, last, rfl, hsound, hheader, hending⟩ := h
  have hcheck : checkHeader c.kind c.body c.body.length = .ok () :=
    (checkHeader_cases c).elim And.left fun hnot => absurd hheader hnot.1
  unfold checkPng
  rw [walk_chunk, if_pos hsound]
  unfold afterChunk
  rw [if_pos rfl, hcheck, ← List.append_assoc, ← List.length_append]
  exact walk_of_ending (pngSignature ++ c.bytes) hending

theorem checkPng_cases (bytes : List UInt8) :
    Png bytes ∨ ∃ message, checkPng (pngSignature ++ bytes) = .error (.uploadRejected message) := by
  unfold checkPng
  by_cases hchunk : ∃ (c : Chunk) (after : List UInt8), bytes = c.bytes ++ after
  · obtain ⟨c, after, rfl⟩ := hchunk
    rw [walk_chunk]
    by_cases hsound : c.Sound
    · rw [if_pos hsound]
      unfold afterChunk
      rw [if_pos rfl]
      rcases checkHeader_cases c with ⟨hcheck, hheader⟩ | ⟨-, message, hcheck⟩
      · rw [hcheck, ← List.append_assoc, ← List.length_append]
        rcases walk_false (pngSignature ++ c.bytes) after with ⟨-, chunks, last, hending⟩ | hrejected
        · exact .inl ⟨c, after, chunks, last, rfl, hsound, hheader, hending⟩
        · exact .inr hrejected
      · rw [hcheck]
        exact .inr ⟨message, rfl⟩
    · rw [if_neg hsound]
      exact .inr ⟨_, rfl⟩
  · rw [walk_none pngSignature hchunk]
    exact .inr ⟨_, rfl⟩

theorem hasSignature_png (data : List UInt8) :
    hasSignature "image/png" (slice data 0 12) = true ↔ ∃ bytes, data = pngSignature ++ bytes := by
  have hpng : hasSignature "image/png" (slice data 0 12) = pngSignature.isPrefixOf (data.take 12) := rfl
  rw [hpng, List.isPrefixOf_iff_prefix]
  constructor
  · intro h
    obtain ⟨bytes, hbytes⟩ := h.trans (List.take_prefix 12 data)
    exact ⟨bytes, hbytes.symm⟩
  · rintro ⟨bytes, rfl⟩
    exact ⟨bytes.take 4, (List.take_length_add_append 4).symm⟩

/-- **What `_check_png` accepts.** After the signature, exactly a PNG; everything else, and under the type
`image/png` everything without the signature, is refused and raises nothing else. -/
theorem checkPng_iff :
    (∀ bytes, (checkPng (pngSignature ++ bytes) = .ok () ↔ Png bytes) ∧
      (¬ Png bytes → ∃ message, checkPng (pngSignature ++ bytes) = .error (.uploadRejected message))) ∧
    ∀ (config : Config) (data : List UInt8), (¬ ∃ bytes, data = pngSignature ++ bytes) →
      ∃ message, validate config "image/png" data = .error (.uploadRejected message) := by
  refine ⟨fun bytes => ⟨⟨fun hok => ?_, checkPng_of_png⟩, fun hnot => (checkPng_cases bytes).resolve_left hnot⟩, ?_⟩
  · refine (checkPng_cases bytes).resolve_right ?_
    rintro ⟨message, hrejected⟩
    rw [hok] at hrejected
    cases hrejected
  · intro config data hnone
    have hsignature : hasSignature "image/png" (slice data 0 12) = false := by
      rw [← Bool.not_eq_true, hasSignature_png]
      exact hnone
    have hextension : extensionByType.lookup "image/png" = some ".png" := by decide
    unfold validate
    rw [hextension]
    dsimp only
    -- whichever check comes first refuses it
    split
    · exact ⟨_, rfl⟩
    · split
      · exact ⟨_, rfl⟩
      · split
        · exact ⟨_, rfl⟩
        · rw [hsignature]
          exact ⟨_, rfl⟩

end RetailSegmentation.Uploads
