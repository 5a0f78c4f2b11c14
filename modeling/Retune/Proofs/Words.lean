import Mathlib.Data.FinEnum
import Retune.Bus.Word

/-!
# What the words of the message bus say

The fields of a word do not overlap, so each reads back what was put there: the
command, the address and the byte of a request, and the byte of a response.
-/

namespace Retune

theorem or_and_each (a b c : UInt32) : (a ||| b) &&& c = (a &&& c) ||| (b &&& c) := by
  apply UInt32.toBitVec_inj.mp
  simp only [UInt32.toBitVec_and, UInt32.toBitVec_or]
  ext i hi
  simp only [BitVec.getElem_and, BitVec.getElem_or, Bool.and_or_distrib_right]

theorem Field.get_or (f : Field) (a b : UInt32) : f.get (a ||| b) = f.get a ||| f.get b := by
  unfold Field.get
  rw [UInt32.shiftRight_or, or_and_each]

theorem Field.get_and (f : Field) (a b : UInt32) : f.get (a &&& b) = f.get a &&& (b >>> f.low) := by
  unfold Field.get
  rw [UInt32.shiftRight_and, UInt32.and_assoc, UInt32.and_comm (b >>> f.low), ← UInt32.and_assoc]

theorem and_ne_zero_of_or {a b c : UInt32} (h : a &&& c ≠ 0) : (a ||| b) &&& c ≠ 0 := by
  rw [or_and_each]
  intro hor
  exact h (UInt32.or_eq_zero_iff.mp hor).1

theorem and_not_and (a b : UInt32) : (a &&& ~~~b) &&& b = 0 := by
  rw [UInt32.and_assoc, UInt32.not_and_self, UInt32.and_zero]

namespace BusWord

/-! ## Requests -/

variable (c : BusCommand) (addr : UInt16) (value : UInt8)

theorem request_pending : request c addr value &&& pending ≠ 0 := by
  unfold request
  have hpending : pending &&& pending ≠ 0 := by decide
  exact and_ne_zero_of_or (and_ne_zero_of_or (and_ne_zero_of_or hpending))

theorem request_reset : request c addr value &&& reset = 0 := by
  have hcode : (c.code <<< 27) &&& reset = 0 := by cases c <;> decide
  have hvalue : ∀ value : UInt8, (value.toUInt32 <<< 16) &&& reset = 0 := by decide +kernel
  have haddr : (addr.toUInt32 &&& address.top) &&& reset = 0 := by
    have htop : address.top &&& reset = 0 := by decide
    rw [UInt32.and_assoc, htop, UInt32.and_zero]
  unfold request
  rw [or_and_each, or_and_each, or_and_each, hcode, hvalue, haddr]
  decide

theorem request_ne_reset : request c addr value ≠ reset := by
  intro heq
  have hclear := request_reset c addr value
  rw [heq] at hclear
  exact absurd hclear (by decide)

theorem command_request : command.get (request c addr value) = c.code := by
  have hpending : command.get pending = 0 := by decide
  have hcode : command.get (c.code <<< 27) = c.code := by cases c <;> decide
  have hvalue : ∀ value : UInt8, command.get (value.toUInt32 <<< 16) = 0 := by decide +kernel
  have haddr : command.get (addr.toUInt32 &&& address.top) = 0 := by
    have htop : address.top >>> command.low = 0 := by decide
    rw [Field.get_and, htop, UInt32.and_zero]
  unfold request
  rw [Field.get_or, Field.get_or, Field.get_or, hpending, hcode, hvalue, haddr, UInt32.or_zero,
    UInt32.or_zero, UInt32.zero_or]

theorem address_request : (address.get (request c addr value)).toUInt16 = addr &&& 0xFFF := by
  have hpending : address.get pending = 0 := by decide
  have hcode : address.get (c.code <<< 27) = 0 := by cases c <;> decide
  have hvalue : ∀ value : UInt8, address.get (value.toUInt32 <<< 16) = 0 := by decide +kernel
  have haddr : address.get (addr.toUInt32 &&& address.top) = addr.toUInt32 &&& 0xFFF := by
    have hzero : address.low = 0 := rfl
    have htop : address.top = 0xFFF := by decide
    unfold Field.get
    rw [hzero, UInt32.shiftRight_zero, htop, UInt32.and_assoc, UInt32.and_self]
  unfold request
  rw [Field.get_or, Field.get_or, Field.get_or, hpending, hcode, hvalue, haddr, UInt32.zero_or,
    UInt32.zero_or, UInt32.zero_or]
  apply UInt16.toNat_inj.mp
  simp

theorem byte_request : byte (request c addr value) = value := by
  have hpending : data.get pending = 0 := by decide
  have hcode : data.get (c.code <<< 27) = 0 := by cases c <;> decide
  have hvalue : ∀ value : UInt8, (data.get (value.toUInt32 <<< 16)).toUInt8 = value := by
    decide +kernel
  have haddr : data.get (addr.toUInt32 &&& address.top) = 0 := by
    have htop : address.top >>> data.low = 0 := by decide
    rw [Field.get_and, htop, UInt32.and_zero]
  unfold byte request
  rw [Field.get_or, Field.get_or, Field.get_or, hpending, hcode, haddr, UInt32.or_zero,
    UInt32.zero_or, UInt32.zero_or, hvalue]

theorem ofCode?_code : BusCommand.ofCode? c.code = some c := by cases c <;> decide

/-! ## Responses -/

variable (r : BusResponse)

theorem byte_response : byte (response r value) = value := by
  have hready : data.get responseReady = 0 := by decide
  have hcode : data.get (r.code <<< 27) = 0 := by cases r <;> decide
  have hvalue : ∀ value : UInt8, (data.get (value.toUInt32 <<< 16)).toUInt8 = value := by
    decide +kernel
  unfold byte response
  rw [Field.get_or, Field.get_or, hready, hcode, UInt32.zero_or, UInt32.zero_or, hvalue]

theorem response_of : BusResponse.ofCode? (command.get (response r value)) = some r := by
  have hready : command.get responseReady = 0 := by decide
  have hcode : command.get (r.code <<< 27) = r.code := by cases r <;> decide
  have hvalue : ∀ value : UInt8, command.get (value.toUInt32 <<< 16) = 0 := by decide +kernel
  have hfound : BusResponse.ofCode? r.code = some r := by cases r <;> decide
  unfold response
  rw [Field.get_or, Field.get_or, hready, hcode, hvalue, UInt32.zero_or, UInt32.or_zero, hfound]

theorem response_error : response r value &&& errorSet = 0 := by
  have hready : responseReady &&& errorSet = 0 := by decide
  have hcode : (r.code <<< 27) &&& errorSet = 0 := by cases r <;> decide
  have hvalue : ∀ value : UInt8, (value.toUInt32 <<< 16) &&& errorSet = 0 := by decide +kernel
  unfold response
  rw [or_and_each, or_and_each, hready, hcode, hvalue, UInt32.or_zero, UInt32.or_zero]

/-- Writing the bits of a response to where they are cleared leaves none. -/
theorem cleared_ready (w x e : UInt32) :
    (w &&& ~~~(x ||| (responseReady ||| e))) &&& responseReady = 0 := by
  apply UInt32.toBitVec_inj.mp
  simp only [UInt32.toBitVec_and, UInt32.toBitVec_or, UInt32.toBitVec_not]
  ext i hi
  simp only [BitVec.getElem_and, BitVec.getElem_or, BitVec.getElem_not]
  cases responseReady.toBitVec[i] <;> simp

end BusWord

end Retune
