import RecordGraph.Value.Convert
import RecordGraph.Value.Same
import RecordGraph.Proofs.Number.Binary64
/-! Numbers that come back from the wire. A finite number of the host is read from its plain form on the wire
as an equal one, whatever form that has. -/

namespace RecordGraph

namespace HostNumber

variable {n : HostNumber} {w : WireNumber}

theorem toWire?_float {x : Binary64} (h : (HostNumber.float x).toWire? = some w) :
    ∃ hfinite, w = .float x hfinite := by
  simp only [toWire?, WireNumber.ofFloat?, Option.dite_none_right_eq_some] at h
  obtain ⟨hfinite, ⟨⟩⟩ := h
  exact ⟨hfinite, rfl⟩

/-- A number that is read back is the number that was written, in the first form that holds it. -/
theorem toBinary64_ofWire (h : n.toWire? = some w) : (ofWire w).toBinary64 = n.toBinary64 := by
  cases n with
  | signed n =>
    cases h
    have hlt : n.toInt < 0x8000000000000000 := n.toInt_lt
    simp only [WireNumber.ofInt64, ofWire, if_pos hlt, toBinary64, Int64.ofInt_toInt]
  | unsigned n =>
    cases h
    simp only [WireNumber.ofUInt64, ofWire]
    split
    · case isTrue hn =>
      have htoInt : (Int64.ofInt n.toNat).toInt = n.toNat := Int64.toInt_ofInt_of_le (by omega) hn
      simp only [toBinary64, htoInt]
    · simp only [toBinary64, Int.toNat_natCast, UInt64.ofNat_toNat]
  | float x =>
    obtain ⟨hfinite, rfl⟩ := toWire?_float h
    rfl

theorem isNaN_toBinary64 (h : n.toWire? = some w) : n.toBinary64.isNaN = false := by
  cases n with
  | float x =>
    obtain ⟨hfinite, -⟩ := toWire?_float h
    exact Binary64.isNaN_of_isFinite hfinite
  | _ => exact Binary64.isNaN_ofRatio _ _ _

theorem same_ofWire (h : n.toWire? = some w) : (Value.number n).same (.number (ofWire w)) = true := by
  rw [Value.same, toBinary64_ofWire h]
  exact Binary64.sameNumber_self (isNaN_toBinary64 h)

end HostNumber

end RecordGraph
