import Mathlib.Data.List.Dedup
import Mathlib.Data.List.InsertIdx
import Mathlib.Data.List.Nodup
import Retune.Ownership
import Retune.Proofs.Paths

/-!
# Guards

A guard owns the key in its place until it is dropped. However claims and drops
follow each other, the bits set are those of the places of the guards alive, no two
of which have one key, and the slots are the keys that were ever granted.
-/

namespace Retune

variable {σ : Type}

namespace Registry

/-! ## Bits -/

theorem bit_toBitVec {i : Nat} (hi : i < 64) : (bit i).toBitVec = BitVec.twoPow 64 i := by
  have hplace : (i.toUInt64.toBitVec % 64).toNat = i := by
    simp
    omega
  unfold bit
  rw [BitVec.twoPow_eq, UInt64.toBitVec_shiftLeft, BitVec.shiftLeft_eq', hplace]
  rfl

theorem hasBit_eq (r : Registry) {i : Nat} (hi : i < 64) :
    r.hasBit i = r.owned.toBitVec.getLsbD i := by
  have hbit : BitVec.twoPow 64 i ≠ 0#64 := by
    intro hzero
    have hself : (BitVec.twoPow 64 i).getLsbD i = true := by simp [hi]
    rw [hzero] at hself
    simp at hself
  have hand : r.owned &&& bit i = 0 ↔ r.owned.toBitVec.getLsbD i = false := by
    rw [← UInt64.toBitVec_inj, UInt64.toBitVec_and, bit_toBitVec hi, BitVec.and_twoPow]
    split
    · next hset => simp [hset, hbit]
    · next hclear => simp [hclear]
  rw [hasBit, Bool.eq_iff_iff, bne_iff_ne, ne_eq, hand, Bool.not_eq_false]

theorem hasBit_or (r : Registry) (slots : List PllKey) {i j : Nat} (hi : i < 64) (hj : j < 64) :
    (⟨slots, r.owned ||| bit i⟩ : Registry).hasBit j = true ↔ j = i ∨ r.hasBit j = true := by
  rw [hasBit_eq _ hj, hasBit_eq _ hj, UInt64.toBitVec_or, BitVec.getLsbD_or, bit_toBitVec hi,
    BitVec.getLsbD_twoPow, Bool.or_eq_true, Bool.and_eq_true, decide_eq_true_iff, decide_eq_true_iff,
    and_iff_right hi, or_comm, eq_comm]

theorem hasBit_release (r : Registry) {g : Guard} {j : Nat} (hg : g.place < 64) (hj : j < 64) :
    (r.release g).hasBit j = true ↔ j ≠ g.place ∧ r.hasBit j = true := by
  unfold release
  rw [hasBit_eq _ hj, hasBit_eq _ hj, UInt64.toBitVec_and, UInt64.toBitVec_not, BitVec.getLsbD_and,
    BitVec.getLsbD_not, bit_toBitVec hg, BitVec.getLsbD_twoPow, and_comm, ne_comm]
  simp [hg, hj]

/-! ## Places -/

theorem find?_eq_none {r : Registry} {key : PllKey} : r.find? key = none ↔ key ∉ r.slots := by
  unfold find?
  rw [List.findIdx?_eq_none_iff]
  constructor
  · intro h hkey
    exact absurd (h key hkey) (by simp)
  · intro h k hk
    exact beq_eq_false_iff_ne.mpr (ne_of_mem_of_not_mem hk h)

theorem find?_eq_some {r : Registry} (hr : r.slots.Nodup) {key : PllKey} {place : Nat} :
    r.find? key = some place ↔ r.slots[place]? = some key := by
  unfold find?
  rw [List.findIdx?_eq_some_iff_getElem, List.getElem?_eq_some_iff]
  constructor
  · rintro ⟨hlt, hkey, -⟩
    exact ⟨hlt, beq_iff_eq.mp hkey⟩
  · rintro ⟨hlt, rfl⟩
    refine ⟨hlt, beq_self_eq_true _, fun j hj heq => ?_⟩
    have hsame : j = place := (hr.getElem_inj_iff).mp (beq_iff_eq.mp heq)
    exact Nat.ne_of_lt hj hsame

/-! ## Who owns what -/

/-- The guards alive have different keys, each stands in the place of its own, and
the bits set are those of their places. -/
structure HeldBy (r : Registry) (live : List Guard) : Prop where
  distinct : r.slots.Nodup
  room : r.slots.length ≤ 64
  single : (live.map Guard.key).Nodup
  placed : ∀ g ∈ live, r.slots[g.place]? = some g.key
  marked : ∀ place < 64, r.hasBit place = true ↔ ∃ g ∈ live, g.place = place

theorem heldBy_empty : empty.HeldBy [] where
  distinct := .nil
  room := Nat.zero_le _
  single := .nil
  placed _ hg := nomatch hg
  marked place hplace := by
    have hzero : empty.owned.toBitVec = 0#64 := rfl
    rw [hasBit_eq _ hplace, hzero]
    simp

namespace HeldBy
variable {r : Registry} {live : List Guard} {g : Guard} {key : PllKey} {place : Nat}

theorem lt_length (hr : r.HeldBy live) (hg : g ∈ live) : g.place < r.slots.length :=
  (List.getElem?_eq_some_iff.mp (hr.placed g hg)).1

theorem lt_room (hr : r.HeldBy live) (hg : g ∈ live) : g.place < 64 :=
  Nat.lt_of_lt_of_le (hr.lt_length hg) hr.room

theorem mem_slots (hr : r.HeldBy live) (hg : g ∈ live) : g.key ∈ r.slots :=
  List.mem_of_getElem? (hr.placed g hg)

theorem eq_of_place (hr : r.HeldBy live) {g' : Guard} (hg : g ∈ live) (hg' : g' ∈ live)
    (hplace : g.place = g'.place) : g = g' := by
  have hkey : g.key = g'.key := by
    have hplaced := hr.placed g hg
    rw [hplace, hr.placed g' hg'] at hplaced
    exact (Option.some.inj hplaced).symm
  exact List.inj_on_of_nodup_map hr.single hg hg' hkey

theorem hasBit_of_slot (hr : r.HeldBy live) (hslot : r.slots[place]? = some key) :
    r.hasBit place = true ↔ key ∈ live.map Guard.key := by
  have hlt : place < r.slots.length := (List.getElem?_eq_some_iff.mp hslot).1
  rw [hr.marked place (Nat.lt_of_lt_of_le hlt hr.room), List.mem_map]
  constructor
  · rintro ⟨g, hg, rfl⟩
    rw [hr.placed g hg] at hslot
    exact ⟨g, hg, Option.some.inj hslot⟩
  · rintro ⟨g, hg, rfl⟩
    exact ⟨g, hg, (List.getElem?_inj (hr.lt_length hg) hr.distinct).mp ((hr.placed g hg).trans hslot.symm)⟩

theorem isOwned_iff (hr : r.HeldBy live) : r.isOwned key = true ↔ key ∈ live.map Guard.key := by
  unfold isOwned
  cases hfind : r.find? key with
  | none =>
    have hnew : key ∉ r.slots := find?_eq_none.mp hfind
    refine iff_of_false Bool.false_ne_true fun hkey => ?_
    obtain ⟨g, hg, rfl⟩ := List.mem_map.mp hkey
    exact hnew (hr.mem_slots hg)
  | some place => exact hr.hasBit_of_slot ((find?_eq_some hr.distinct).mp hfind)

theorem grant (hr : r.HeldBy live) {slots : List PllKey} (hslots : r.slots <+: slots)
    (hdistinct : slots.Nodup) (hroom : slots.length ≤ 64) (hslot : slots[place]? = some key)
    (hkey : key ∉ live.map Guard.key) :
    (⟨slots, r.owned ||| bit place⟩ : Registry).HeldBy (⟨place, key⟩ :: live) where
  distinct := hdistinct
  room := hroom
  single := List.nodup_cons.mpr ⟨hkey, hr.single⟩
  placed := by
    refine List.forall_mem_cons.mpr ⟨hslot, fun g hg => ?_⟩
    obtain ⟨hlt, hget⟩ := List.getElem?_eq_some_iff.mp (hr.placed g hg)
    rw [← hget, hslots.getElem hlt]
    exact List.getElem?_eq_getElem _
  marked j hj := by
    have hlt : place < slots.length := (List.getElem?_eq_some_iff.mp hslot).1
    rw [hasBit_or r slots (Nat.lt_of_lt_of_le hlt hroom) hj, hr.marked j hj]
    simp [eq_comm]

theorem release (hr : r.HeldBy live) {i : Nat} (hi : live[i]? = some g) :
    (r.release g).HeldBy (live.eraseIdx i) where
  distinct := hr.distinct
  room := hr.room
  single := by
    rw [← List.eraseIdx_map]
    exact hr.single.eraseIdx i
  placed g' hg' := hr.placed g' (List.mem_of_mem_eraseIdx hg')
  marked j hj := by
    have hg : g ∈ live := List.mem_of_getElem? hi
    have hdistinct : live.Nodup := .of_map _ hr.single
    obtain ⟨hlt, rfl⟩ := List.getElem?_eq_some_iff.mp hi
    rw [hasBit_release r (hr.lt_room hg) hj, hr.marked j hj, ← hdistinct.erase_getElem i hlt]
    constructor
    · rintro ⟨hother, g', hg', rfl⟩
      exact ⟨g', hdistinct.mem_erase_iff.mpr ⟨fun heq => hother (heq ▸ rfl), hg'⟩, rfl⟩
    · rintro ⟨g', hg', rfl⟩
      obtain ⟨hother, hlive⟩ := hdistinct.mem_erase_iff.mp hg'
      exact ⟨fun hplace => hother (hr.eq_of_place hlive hg hplace), g', hlive, rfl⟩

theorem isOwned_release (hr : r.HeldBy live) {i : Nat} (hi : live[i]? = some g) :
    (r.release g).isOwned key = true ↔ key ≠ g.key ∧ r.isOwned key = true := by
  obtain ⟨hlt, rfl⟩ := List.getElem?_eq_some_iff.mp hi
  have hlt' : i < (live.map Guard.key).length := by rwa [List.length_map]
  have hkey : live[i].key = (live.map Guard.key)[i] := (List.getElem_map _).symm
  rw [(hr.release hi).isOwned_iff, hr.isOwned_iff, ← List.eraseIdx_map, hkey,
    ← hr.single.erase_getElem i hlt', hr.single.mem_erase_iff]

end HeldBy

/-! ## Claims -/

section
variable {r : Registry} {live : List Guard} {key : PllKey}

theorem locate_known {place : Nat} (hfind : r.find? key = some place) :
    (locate key).run r = (.ok place, r) := by
  have hget : (get : Fallible Registry Registry).run r = (.ok r, r) := rfl
  unfold locate
  rw [run_then, hget]
  dsimp only
  rw [hfind]
  rfl

theorem locate_new (hkey : key ∉ r.slots) :
    (locate key).run r =
      if 64 ≤ r.slots.length then (.error (.invalidArgument "too many PLL slots"), r)
      else (.ok r.slots.length, { r with slots := r.slots ++ [key] }) := by
  have hget : (get : Fallible Registry Registry).run r = (.ok r, r) := rfl
  unfold locate
  rw [run_then, hget]
  dsimp only
  rw [find?_eq_none.mpr hkey, show capacity = 64 from rfl]
  dsimp only
  split <;> rfl

theorem claim_located {r' : Registry} {place : Nat} (hplace : (locate key).run r = (.ok place, r')) :
    (claim key).run r = if r'.hasBit place then (.error (.alreadyOwned key), r')
      else (.ok ⟨place, key⟩, { r' with owned := r'.owned ||| bit place }) := by
  have hget : (get : Fallible Registry Registry).run r' = (.ok r', r') := rfl
  unfold claim
  rw [run_then, hplace]
  dsimp only
  rw [run_then, hget]
  dsimp only
  split <;> rfl

theorem claim_full (hkey : key ∉ r.slots) (hfull : 64 ≤ r.slots.length) :
    (claim key).run r = (.error (.invalidArgument "too many PLL slots"), r) := by
  unfold claim
  rw [run_then, locate_new hkey, if_pos hfull]

theorem HeldBy.claim_live (hr : r.HeldBy live) (hlive : key ∈ live.map Guard.key) :
    (claim key).run r = (.error (.alreadyOwned key), r) := by
  obtain ⟨g, hg, rfl⟩ := List.mem_map.mp hlive
  have hslot := hr.placed g hg
  rw [claim_located (locate_known ((find?_eq_some hr.distinct).mpr hslot)),
    if_pos ((hr.hasBit_of_slot hslot).mpr hlive)]

theorem HeldBy.claim_free (hr : r.HeldBy live) (hlive : key ∉ live.map Guard.key)
    (hroom : key ∈ r.slots ∨ r.slots.length < 64) : ∃ place r',
      (claim key).run r = (.ok ⟨place, key⟩, r') ∧ r'.HeldBy (⟨place, key⟩ :: live) ∧
        ∀ k, k ∈ r'.slots ↔ k = key ∨ k ∈ r.slots := by
  by_cases hkey : key ∈ r.slots
  · obtain ⟨place, hslot⟩ := List.mem_iff_getElem?.mp hkey
    have hfree : ¬ r.hasBit place = true := fun h => hlive ((hr.hasBit_of_slot hslot).mp h)
    refine ⟨place, _, ?_, hr.grant List.prefix_rfl hr.distinct hr.room hslot hlive, fun k => ?_⟩
    · rw [claim_located (locate_known ((find?_eq_some hr.distinct).mpr hslot)), if_neg hfree]
    · exact ⟨.inr, fun h => h.elim (fun heq => heq ▸ hkey) id⟩
  · have hlt : r.slots.length < 64 := hroom.resolve_left hkey
    have hfree : ¬ r.hasBit r.slots.length = true := by
      rw [hr.marked _ hlt]
      rintro ⟨g, hg, hplace⟩
      exact Nat.ne_of_lt (hr.lt_length hg) hplace
    have hdistinct : (r.slots ++ [key]).Nodup :=
      List.nodup_append.mpr ⟨hr.distinct, List.nodup_singleton key,
        fun k hk k' hk' => ne_of_mem_of_not_mem hk (List.mem_singleton.mp hk' ▸ hkey)⟩
    have hlength : (r.slots ++ [key]).length ≤ 64 := by
      rw [List.length_append, List.length_singleton]
      exact hlt
    have hslot : (r.slots ++ [key])[r.slots.length]? = some key := List.getElem?_concat_length
    refine ⟨r.slots.length, _, ?_,
      hr.grant (List.prefix_append _ _) hdistinct hlength hslot hlive, fun k => ?_⟩
    · have hlocate := locate_new hkey
      rw [if_neg (Nat.not_le_of_lt hlt)] at hlocate
      rw [claim_located hlocate]
      exact if_neg hfree
    · rw [List.mem_append, List.mem_singleton, or_comm]

theorem HeldBy.claim (hr : r.HeldBy live) (key : PllKey) :
    (∃ g r', (Registry.claim key).run r = (.ok g, r') ∧ g.key = key ∧ r'.HeldBy (g :: live) ∧
        ∀ k, k ∈ r'.slots ↔ k = key ∨ k ∈ r.slots) ∨
      ∃ e, (Registry.claim key).run r = (.error e, r) := by
  by_cases hlive : key ∈ live.map Guard.key
  · exact .inr ⟨_, hr.claim_live hlive⟩
  · by_cases hroom : key ∈ r.slots ∨ r.slots.length < 64
    · obtain ⟨place, r', hclaim, hheld, hslots⟩ := hr.claim_free hlive hroom
      exact .inl ⟨_, r', hclaim, rfl, hheld, hslots⟩
    · obtain ⟨hnew, hfull⟩ := not_or.mp hroom
      exact .inr ⟨_, claim_full hnew (Nat.le_of_not_lt hfull)⟩

end

end Registry

/-! ## Claims and drops -/

theorem claimPll_granted (env : Environment σ) {key : PllKey} {r r' : Registry} {g : Guard}
    (hclaim : (Registry.claim key).run r = (.ok g, r')) (s : σ) :
    (claimPll env key).run r s = ((.ok g, r'), (env.report (ClaimNotice.claimed key) s).2) := by
  unfold claimPll
  rw [run_andThen, run_current]
  dsimp only
  rw [hclaim]
  rfl

theorem claimPll_refused (env : Environment σ) {key : PllKey} {r r' : Registry} {e : Failure}
    (hclaim : (Registry.claim key).run r = (.error e, r')) (s : σ) :
    (claimPll env key).run r s =
      ((.error e, r'), (env.report (ClaimNotice.ofFailure key e) s).2) := by
  unfold claimPll
  rw [run_andThen, run_current]
  dsimp only
  rw [hclaim]
  rfl

/-- A registry with the guards alive and the keys of all there ever were. -/
structure Tenure where
  registry : Registry
  live : List Guard
  granted : List PllKey

/-- A guard is dropped by its place among those alive. Asking who owns a key leaves
everything as it is, so it is no operation. -/
inductive GuardOperation where
  | claim (key : PllKey)
  | drop (i : Nat)

namespace Tenure

def fresh : Tenure := ⟨.empty, [], []⟩

def perform (env : Environment σ) (t : Tenure) (s : σ) : GuardOperation → Tenure × σ
  | .claim key =>
    match (claimPll env key).run t.registry s with
    | ((.ok g, registry), s) => (⟨registry, g :: t.live, key :: t.granted⟩, s)
    | ((.error _, registry), s) => ({ t with registry }, s)
  | .drop i =>
    match t.live[i]? with
    | some g =>
      let ((_, registry), s) := releasePll env g t.registry s
      ({ t with registry, live := t.live.eraseIdx i }, s)
    | none => (t, s)

def run (env : Environment σ) : List GuardOperation → Tenure × σ → Tenure × σ
  | [], r => r
  | op :: ops, (t, s) => run env ops (t.perform env s op)

structure Sound (t : Tenure) : Prop where
  held : t.registry.HeldBy t.live
  remembered : ∀ key, key ∈ t.registry.slots ↔ key ∈ t.granted

theorem sound_fresh : fresh.Sound := ⟨Registry.heldBy_empty, fun _ => Iff.rfl⟩

variable {env : Environment σ} {t : Tenure} {s : σ}

theorem Sound.perform (ht : t.Sound) (op : GuardOperation) : (t.perform env s op).1.Sound := by
  cases op with
  | claim key =>
    unfold Tenure.perform
    dsimp only
    rcases ht.held.claim key with ⟨g, r', hclaim, -, hheld, hslots⟩ | ⟨e, hclaim⟩
    · rw [claimPll_granted env hclaim]
      refine ⟨hheld, fun k => ?_⟩
      rw [hslots, ht.remembered, List.mem_cons]
    · rw [claimPll_refused env hclaim]
      exact ht
  | drop i =>
    unfold Tenure.perform
    dsimp only
    split
    · next g hi => exact ⟨ht.held.release hi, ht.remembered⟩
    · exact ht

theorem sound_run : ∀ (ops : List GuardOperation) {t : Tenure} {s : σ}, t.Sound →
    (run env ops (t, s)).1.Sound
  | [], _, _, ht => ht
  | op :: ops, _, _, ht => sound_run ops (ht.perform op)

theorem Sound.length_slots (ht : t.Sound) : t.registry.slots.length = t.granted.dedup.length := by
  have hperm : t.registry.slots.Perm t.granted.dedup := by
    rw [List.perm_ext_iff_of_nodup ht.held.distinct (List.nodup_dedup _)]
    intro key
    rw [ht.remembered, List.mem_dedup]
  exact hperm.length_eq

theorem Sound.claim (ht : t.Sound) (env : Environment σ) (key : PllKey) (s : σ) :
    let ended := (claimPll env key).run t.registry s
    ((∃ g, ended.1.1 = .ok g) ↔
        key ∉ t.live.map Guard.key ∧ (key ∈ t.granted ∨ t.granted.dedup.length < 64)) ∧
      (∀ g, ended.1.1 = .ok g → g.key = key) ∧
      (ended.1.1 = .error (.alreadyOwned key) ↔ key ∈ t.live.map Guard.key) ∧
      ((∃ what, ended.1.1 = .error (.invalidArgument what)) ↔
        key ∉ t.granted ∧ t.registry.slots.length = 64) ∧
      ∀ e, ended.1.1 = .error e → ended.1.2 = t.registry := by
  intro ended
  have hroom : t.registry.slots.length ≤ 64 := ht.held.room
  rw [← ht.length_slots, ← ht.remembered]
  by_cases hlive : key ∈ t.live.map Guard.key
  · have hknown : key ∈ t.registry.slots := by
      obtain ⟨g, hg, rfl⟩ := List.mem_map.mp hlive
      exact ht.held.mem_slots hg
    have hrun : ended = _ := claimPll_refused env (ht.held.claim_live hlive) s
    simp only [hrun, hlive, hknown]
    simp
  · by_cases hgrants : key ∈ t.registry.slots ∨ t.registry.slots.length < 64
    · obtain ⟨place, r', hclaim, -, -⟩ := ht.held.claim_free hlive hgrants
      have hnotFull : ¬ (key ∉ t.registry.slots ∧ t.registry.slots.length = 64) := by
        rintro ⟨hnew, hlength⟩
        exact Nat.lt_irrefl 64 (hlength ▸ hgrants.resolve_left hnew)
      have hrun : ended = _ := claimPll_granted env hclaim s
      simp only [hrun, hlive, hgrants, hnotFull]
      simp
    · obtain ⟨hnew, hfull⟩ := not_or.mp hgrants
      have hlength : t.registry.slots.length = 64 := Nat.le_antisymm hroom (Nat.le_of_not_lt hfull)
      have hrun : ended = _ :=
        claimPll_refused env (Registry.claim_full hnew (Nat.le_of_not_lt hfull)) s
      simp only [hrun, hlive, hgrants]
      simp [hnew, hlength]

theorem drop_registry {i : Nat} {g : Guard} (hi : t.live[i]? = some g) :
    (t.perform env s (.drop i)).1.registry = t.registry.release g := by
  unfold perform
  simp only [hi]
  rfl

end Tenure

/-- Whatever is claimed and dropped: the slots are different keys, at most 64; no two
guards alive have one key, each stands in the slot of its key, the bits set are those
of their places, and the keys owned are theirs. A claim succeeds exactly if no guard
alive has the key and it was granted before or fewer than 64 keys were; it conflicts
exactly with a guard alive, and lacks room exactly for a new key when 64 are
tracked. One that fails changes nothing, and a drop gives up the key of its guard and
no other. -/
theorem guards_own_exclusively (env : Environment σ) (ops : List GuardOperation) (start : σ) :
    let t := (Tenure.run env ops (.fresh, start)).1
    (t.registry.slots.Nodup ∧ t.registry.slots.length ≤ 64) ∧
      (t.live.map Guard.key).Nodup ∧
      ((∀ g ∈ t.live, g.place < 64 ∧ t.registry.slots[g.place]? = some g.key) ∧
        ∀ place < 64, t.registry.hasBit place = true ↔ ∃ g ∈ t.live, g.place = place) ∧
      (∀ key, t.registry.isOwned key = true ↔ key ∈ t.live.map Guard.key) ∧
      (∀ key s, let ended := (claimPll env key).run t.registry s
        ((∃ g, ended.1.1 = .ok g) ↔
            key ∉ t.live.map Guard.key ∧ (key ∈ t.granted ∨ t.granted.dedup.length < 64)) ∧
          (∀ g, ended.1.1 = .ok g → g.key = key) ∧
          (ended.1.1 = .error (.alreadyOwned key) ↔ key ∈ t.live.map Guard.key) ∧
          ((∃ what, ended.1.1 = .error (.invalidArgument what)) ↔
            key ∉ t.granted ∧ t.registry.slots.length = 64) ∧
          ∀ e, ended.1.1 = .error e → ended.1.2 = t.registry) ∧
      ∀ (i : Nat) g s, t.live[i]? = some g →
        let left := (t.perform env s (.drop i)).1
        left.registry.isOwned g.key = false ∧
          ∀ k, k ≠ g.key → left.registry.isOwned k = t.registry.isOwned k := by
  intro t
  have ht : t.Sound := Tenure.sound_run ops Tenure.sound_fresh
  refine ⟨⟨ht.held.distinct, ht.held.room⟩, ht.held.single, ⟨fun g hg => ?_, ht.held.marked⟩,
    fun key => ht.held.isOwned_iff, ?_, ?_⟩
  · exact ⟨ht.held.lt_room hg, ht.held.placed g hg⟩
  · intro key s
    exact ht.claim env key s
  · intro i g s hi left
    have hleft : left.registry = t.registry.release g := Tenure.drop_registry hi
    rw [hleft]
    constructor
    · rw [← Bool.not_eq_true, ht.held.isOwned_release hi]
      exact fun h => h.1 rfl
    · intro k hk
      rw [Bool.eq_iff_iff, ht.held.isOwned_release hi]
      exact and_iff_right hk

end Retune
