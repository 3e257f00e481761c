import AdsbBridge.Readsb.ExtendedSquitter

/-! # The adapter's memory of addresses

`seen_icao` and `seen_icao_next` of `readsb_bridge_adapter.c`: a ring of 4096
addresses, in which zero marks a free place. -/
namespace AdsbBridge.Readsb

/-- `seen_icao` and `seen_icao_next`. -/
structure IcaoFilter where
  seenIcao : List ℕ
  seenIcaoNext : Fin 4096
  size : seenIcao.length = 4096

def icaoFilterInit : IcaoFilter := ⟨List.replicate 4096 0, 0, List.length_replicate⟩

namespace IcaoFilter

/-- `addr == 0 || addr == HEX_UNKNOWN`. -/
def Ignored (addr : ℕ) : Prop := addr = 0 ∨ addr = hexUnknown

instance (addr : ℕ) : Decidable (Ignored addr) := inferInstanceAs (Decidable (_ ∨ _))

def add (filter : IcaoFilter) (addr : ℕ) : IcaoFilter :=
  if Ignored addr then filter
  else if addr ∈ filter.seenIcao then filter
  else
    { seenIcao := filter.seenIcao.set filter.seenIcaoNext addr
      seenIcaoNext := filter.seenIcaoNext + 1
      size := (List.length_set ..).trans filter.size }

def test (filter : IcaoFilter) (addr : ℕ) : Bool :=
  if Ignored addr then false else decide (addr ∈ filter.seenIcao)

/-- `icaoFilterTestFuzzy`: zero when there is no such address. -/
def testFuzzy (filter : IcaoFilter) (partialAddr : ℕ) : ℕ :=
  (filter.seenIcao.find? fun addr =>
    decide (addr ≠ 0 ∧ addr &&& 0xffff = partialAddr &&& 0xffff)).getD 0

theorem test_icaoFilterInit (addr : ℕ) : icaoFilterInit.test addr = false := by
  unfold test
  split
  · rfl
  · next h =>
    refine decide_eq_false fun hmem => h (.inl ?_)
    exact List.eq_of_mem_replicate hmem

theorem add_of_ignored {addr : ℕ} (h : Ignored addr) (filter : IcaoFilter) :
    filter.add addr = filter := if_pos h

theorem test_add_self (filter : IcaoFilter) {addr : ℕ} (h : ¬ Ignored addr) :
    (filter.add addr).test addr = true := by
  rw [test, if_neg h, decide_eq_true_eq, add, if_neg h]
  split
  · next hmem => exact hmem
  · exact List.mem_set (by rw [filter.size]; exact filter.seenIcaoNext.isLt) addr

def Remembers (filter : IcaoFilter) : Prop := ∃ addr ∈ filter.seenIcao, addr ≠ 0

theorem not_remembers_icaoFilterInit : ¬ Remembers icaoFilterInit := by
  intro h
  obtain ⟨addr, hmem, hne⟩ := h
  exact hne (List.eq_of_mem_replicate hmem)

theorem remembers_add (filter : IcaoFilter) {addr : ℕ} (h : ¬ Ignored addr) :
    (filter.add addr).Remembers := by
  refine ⟨addr, ?_, fun hzero => h (.inl hzero)⟩
  have htest := test_add_self filter h
  rwa [test, if_neg h, decide_eq_true_eq] at htest

theorem Remembers.add {filter : IcaoFilter} (h : filter.Remembers) (addr : ℕ) :
    (filter.add addr).Remembers := by
  by_cases hi : Ignored addr
  · rwa [add_of_ignored hi]
  · exact remembers_add filter hi

end IcaoFilter

end AdsbBridge.Readsb
