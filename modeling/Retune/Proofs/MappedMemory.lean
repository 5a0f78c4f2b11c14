import Retune.Mapping

/-!
# A mapping is a memory of words

Until it is closed a mapping holds at each word within it what was last stored there, or
what it started with. Nothing else is ever touched, and nothing at all after closing.
-/

namespace Retune

theorem wordOfBytes_bytes (w : UInt32) :
    wordOfBytes (byteOfWord w 0) (byteOfWord w 1) (byteOfWord w 2) (byteOfWord w 3) = w := by
  apply UInt32.toBitVec_inj.mp
  unfold wordOfBytes byteOfWord
  simp only [UInt32.toBitVec_or, UInt32.toBitVec_shiftLeft, UInt8.toBitVec_toUInt32,
    UInt32.toBitVec_toUInt8, UInt32.toBitVec_shiftRight]
  ext i hi
  rw [← BitVec.getLsbD_eq_getElem hi, ← BitVec.getLsbD_eq_getElem hi]
  simp only [UInt32.mul_zero, UInt32.mul_one, UInt32.reduceMul, UInt32.toBitVec_ofNat,
    BitVec.ofNat_eq_ofNat, BitVec.zero_umod, BitVec.reduceMod, BitVec.ushiftRight_eq',
    BitVec.ushiftRight_zero, BitVec.shiftLeft_eq', BitVec.toNat_ofNat, Nat.reducePow, Nat.reduceMod,
    Nat.zero_mod, BitVec.getLsbD_or, BitVec.getLsbD_setWidth, BitVec.getLsbD_shiftLeft,
    BitVec.getLsbD_ushiftRight]
  -- Bit `i` comes from one byte: the lowest, which is not shifted, or a shifted one.
  by_cases hlow : i < 8
  · simp only [hlow, decide_true, Bool.true_and, Bool.not_true, Bool.and_false, Bool.false_and,
      Bool.or_false]
    grind
  · grind

inductive MappingCall where
  | load (offset : UInt32)
  | store (offset value : UInt32)
  | close

def MappingCall.leave (m : Mapping) : MappingCall → Mapping
  | load _ => m
  | store offset value => m.store offset value
  | close => m.close

namespace Mapping

def run (m : Mapping) (calls : List MappingCall) : Mapping := calls.foldl MappingCall.leave m

variable {m : Mapping} {i j : Nat} {offset : UInt32}

/-! ## Words among bytes -/

theorem byte_setWordAt_of_outside (w : UInt32) (h : ¬ (i ≤ j ∧ j < i + 4)) :
    (m.setWordAt i w).bytes[j]? = m.bytes[j]? := by
  unfold setWordAt
  dsimp only
  rw [Array.getElem?_setIfInBounds_ne (by omega), Array.getElem?_setIfInBounds_ne (by omega),
    Array.getElem?_setIfInBounds_ne (by omega), Array.getElem?_setIfInBounds_ne (by omega)]

theorem wordAt_setWordAt (w : UInt32) (h : i + 4 ≤ m.bytes.size) :
    (m.setWordAt i w).wordAt i = w := by
  have h0 : i < m.bytes.size := by omega
  have h1 : i + 1 < m.bytes.size := by omega
  have h2 : i + 2 < m.bytes.size := by omega
  have h3 : i + 3 < m.bytes.size := by omega
  unfold wordAt setWordAt
  have hbytes := wordOfBytes_bytes w
  simpa [Array.getD_eq_getD_getElem?, Array.getElem?_setIfInBounds, h0, h1, h2, h3] using hbytes

theorem wordAt_setWordAt_of_apart (w : UInt32) (h : i + 4 ≤ j ∨ j + 4 ≤ i) :
    (m.setWordAt i w).wordAt j = m.wordAt j := by
  unfold wordAt
  simp only [Array.getD_eq_getD_getElem?]
  rw [byte_setWordAt_of_outside w (by omega), byte_setWordAt_of_outside w (by omega),
    byte_setWordAt_of_outside w (by omega), byte_setWordAt_of_outside w (by omega)]

/-! ## Accesses -/

theorem reaches_iff : m.reaches offset = true ↔
    m.live = true ∧ offset.toNat % 4 = 0 ∧ offset.toNat + 4 ≤ m.bytes.size := by
  unfold reaches
  rw [Bool.and_eq_true, Bool.and_eq_true, beq_iff_eq, decide_eq_true_eq, and_assoc]

theorem byte_store_of_outside (value : UInt32) (h : ¬ (offset.toNat ≤ i ∧ i < offset.toNat + 4)) :
    (m.store offset value).bytes[i]? = m.bytes[i]? := by
  unfold store
  split
  · exact byte_setWordAt_of_outside value h
  · rfl

theorem size_store (value : UInt32) : (m.store offset value).bytes.size = m.bytes.size := by
  unfold store
  split
  · simp only [setWordAt, Array.size_setIfInBounds]
  · rfl

theorem live_store (value : UInt32) : (m.store offset value).live = m.live := by
  unfold store
  split <;> rfl

theorem wordAt_store (value : UInt32) (h : m.reaches offset = true) :
    (m.store offset value).wordAt offset.toNat = value := by
  unfold store
  rw [if_pos h]
  exact wordAt_setWordAt value (reaches_iff.mp h).2.2

/-! ## Steps -/

/-- What a call leaves, of `word` as long as the call is not a store to it. -/
structure Kept (m : Mapping) (call : MappingCall) : Prop where
  size : (call.leave m).bytes.size = m.bytes.size
  live : (call.leave m).live = true ↔ m.live = true ∧ call ≠ .close
  closed : m.live = false → (call.leave m).bytes = m.bytes
  others : ∀ word : UInt32, word.toNat % 4 = 0 → (∀ value, call ≠ .store word value) →
    (call.leave m).wordAt word.toNat = m.wordAt word.toNat

theorem kept (m : Mapping) : ∀ call : MappingCall, m.Kept call
  | .load offset =>
    { size := rfl
      live := (and_iff_left nofun).symm
      closed := fun _ => rfl
      others := fun _ _ _ => rfl }
  | .close =>
    { size := rfl
      live := ⟨nofun, fun h => absurd rfl h.2⟩
      closed := fun _ => rfl
      others := fun _ _ _ => rfl }
  | .store offset value =>
    { size := size_store value
      live := by
        rw [MappingCall.leave, live_store]
        exact (and_iff_left nofun).symm
      closed := fun hclosed => by
        have hreaches : m.reaches offset = false := by
          unfold reaches
          rw [hclosed, Bool.false_and, Bool.false_and]
        rw [MappingCall.leave, store_of_not_reaches hreaches]
      others := fun word hword hother => by
        have hne : word.toNat ≠ offset.toNat := fun heq =>
          hother value (UInt32.toNat_inj.mp heq ▸ rfl)
        rw [MappingCall.leave]
        unfold store
        split
        · next hreaches =>
          have haligned := (reaches_iff.mp hreaches).2.1
          exact wordAt_setWordAt_of_apart value (by omega)
        · rfl }

/-! ## Runs -/

theorem size_run : ∀ (calls : List MappingCall) (m : Mapping),
    (m.run calls).bytes.size = m.bytes.size
  | [], _ => rfl
  | call :: calls, m => (size_run calls (call.leave m)).trans (m.kept call).size

theorem live_run : ∀ (calls : List MappingCall) (m : Mapping),
    (m.run calls).live = true ↔ m.live = true ∧ .close ∉ calls
  | [], m => (and_iff_left List.not_mem_nil).symm
  | call :: calls, m => by
    refine (live_run calls (call.leave m)).trans ?_
    rw [(m.kept call).live, and_assoc, List.mem_cons, not_or, ne_comm]

theorem bytes_run_of_closed : ∀ (calls : List MappingCall) {m : Mapping}, m.live = false →
    (m.run calls).bytes = m.bytes
  | [], _, _ => rfl
  | call :: calls, m, hclosed => by
    have hstill : (call.leave m).live = false := by
      rw [← Bool.not_eq_true, (m.kept call).live, hclosed]
      exact fun h => nomatch h.1
    exact (bytes_run_of_closed calls hstill).trans ((m.kept call).closed hclosed)

theorem wordAt_run {word : UInt32} (hword : word.toNat % 4 = 0) :
    ∀ (calls : List MappingCall) (m : Mapping), (∀ value, .store word value ∉ calls) →
      (m.run calls).wordAt word.toNat = m.wordAt word.toNat
  | [], _, _ => rfl
  | call :: calls, m, hother => by
    have hstep := (m.kept call).others word hword fun value heq =>
      hother value (heq ▸ List.mem_cons_self)
    exact (wordAt_run hword calls (call.leave m) fun value hmem =>
      hother value (List.mem_cons_of_mem _ hmem)).trans hstep

end Mapping

/-- After any calls, an access reaches the mapping exactly if none of them closed it and
the access is to a whole word within it, and then a load answers what was stored there
last, or else what was there in the beginning. Any other load answers zero and any other
store changes nothing. A store changes no bytes but those of its word; after the first
closing no bytes change. -/
theorem mapping_keeps_words (bytes : Array UInt8) (calls : List MappingCall) :
    let start : Mapping := ⟨bytes, true⟩
    let m := start.run calls
    (m.live = true ↔ .close ∉ calls) ∧ m.bytes.size = bytes.size ∧
      (∀ before after, calls = before ++ .close :: after →
        m.live = false ∧ m.bytes = (start.run before).bytes) ∧
      ∀ offset : UInt32,
        (m.reaches offset = true ↔
          .close ∉ calls ∧ offset.toNat % 4 = 0 ∧ offset.toNat + 4 ≤ bytes.size) ∧
        (m.reaches offset = true →
          ((∀ value, .store offset value ∉ calls) →
            m.load offset = start.wordAt offset.toNat) ∧
          ∀ before value after, calls = before ++ .store offset value :: after →
            (start.run before).reaches offset = true ∧
            ((∀ other, .store offset other ∉ after) → m.load offset = value)) ∧
        (m.reaches offset = false →
          m.load offset = 0 ∧ ∀ value, m.store offset value = m) ∧
        ∀ value i, ¬ (offset.toNat ≤ i ∧ i < offset.toNat + 4) →
          (m.store offset value).bytes[i]? = m.bytes[i]? := by
  intro start m
  have hsize (calls : List MappingCall) : (start.run calls).bytes.size = bytes.size :=
    Mapping.size_run calls start
  have hlive (calls : List MappingCall) : (start.run calls).live = true ↔ .close ∉ calls :=
    (Mapping.live_run calls start).trans (and_iff_right rfl)
  have hreaches (calls : List MappingCall) (offset : UInt32) :
      (start.run calls).reaches offset = true ↔
        .close ∉ calls ∧ offset.toNat % 4 = 0 ∧ offset.toNat + 4 ≤ bytes.size := by
    rw [Mapping.reaches_iff, hlive, hsize]
  refine ⟨hlive calls, hsize calls, ?_, fun offset => ⟨hreaches calls offset, fun hreached => ?_,
    fun hmissed => ⟨Mapping.load_of_not_reaches hmissed, Mapping.store_of_not_reaches hmissed⟩,
    fun value i houtside => Mapping.byte_store_of_outside value houtside⟩⟩
  · rintro before after rfl
    have hafter : m = (start.run before).close.run after := List.foldl_append
    have hclosed : ¬ m.live = true := fun h =>
      (hlive _).mp h (List.mem_append_right _ List.mem_cons_self)
    refine ⟨Bool.not_eq_true _ ▸ hclosed, ?_⟩
    rw [hafter]
    exact Mapping.bytes_run_of_closed after rfl
  · obtain ⟨hopen, haligned, hwithin⟩ := (hreaches calls offset).mp hreached
    have hload : m.load offset = m.wordAt offset.toNat := if_pos hreached
    refine ⟨fun hnone => hload.trans (Mapping.wordAt_run haligned calls start hnone), ?_⟩
    rintro before value after rfl
    have hbefore : (start.run before).reaches offset = true :=
      (hreaches before offset).mpr
        ⟨fun h => hopen (List.mem_append_left _ h), haligned, hwithin⟩
    refine ⟨hbefore, fun hlast => ?_⟩
    have hafter : m = ((start.run before).store offset value).run after := List.foldl_append
    rw [hload, hafter, Mapping.wordAt_run haligned after _ hlast]
    exact Mapping.wordAt_store value hbefore

/-- The last two of six bytes are part of no word. -/
example : (⟨#[1, 2, 3, 4, 5, 6], true⟩ : Mapping).run [.store 4 7, .store 0 9] =
    ⟨#[9, 0, 0, 0, 5, 6], true⟩ := by decide

end Retune
