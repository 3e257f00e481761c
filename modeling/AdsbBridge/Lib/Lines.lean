import Mathlib.Data.List.Basic

/-! # Records behind separators

A stream in which every record is followed by a separator, and the reader that
takes the records out of it again. A reader that has only the beginning of the
stream has the first records whole and a beginning of the next one. -/
namespace AdsbBridge.Lib.Lines

variable {α : Type} [DecidableEq α] (sep : α)

/-- Every record with the separator behind it. -/
def framed (records : List (List α)) : List α := records.flatMap fun record => record ++ [sep]

/-- The records that a separator ends, and what is left behind the last one. -/
def cut (current : List α) : List α → List (List α) × List α
  | [] => ([], current)
  | a :: rest =>
    if a = sep then ((current :: (cut [] rest).1), (cut [] rest).2) else cut (current ++ [a]) rest

/-- The records that are not empty, the last one also without a separator. -/
def nonEmpty (stream : List α) : List (List α) :=
  ((cut sep [] stream).1 ++ [(cut sep [] stream).2]).filter fun record => !record.isEmpty

variable {sep}

omit [DecidableEq α] in
theorem framed_cons (record : List α) (records : List (List α)) :
    framed sep (record :: records) = record ++ sep :: framed sep records := by
  simp [framed]

omit [DecidableEq α] in
/-- Empty records may be left out before the records are framed. -/
theorem framed_flatMap (records : List (List α)) :
    (records.flatMap fun record => if record.isEmpty then [] else record ++ [sep]) =
      framed sep (records.filter fun record => !record.isEmpty) := by
  induction records with
  | nil => rfl
  | cons record rest ih =>
    rw [List.flatMap_cons, ih, List.filter_cons]
    cases hempty : record.isEmpty with
    | true => simp
    | false => simp [framed]

/-- Within a record nothing is cut. -/
theorem cut_append {record : List α} (h : sep ∉ record) (current rest : List α) :
    cut sep current (record ++ rest) = cut sep (current ++ record) rest := by
  induction record generalizing current with
  | nil => simp
  | cons a record ih =>
    obtain ⟨ha, hrest⟩ := not_or.1 (mt List.mem_cons.2 h)
    rw [List.cons_append, cut, if_neg (Ne.symm ha), ih hrest, List.append_assoc,
      List.singleton_append]

/-- **The records come back**, and what stands behind the last separator. -/
theorem cut_framed {records : List (List α)} (h : ∀ record ∈ records, sep ∉ record) {rest : List α}
    (hrest : sep ∉ rest) : cut sep [] (framed sep records ++ rest) = (records, rest) := by
  induction records with
  | nil =>
    have hcut := cut_append hrest [] []
    rw [List.append_nil, List.nil_append] at hcut
    rw [framed, List.flatMap_nil, List.nil_append, hcut, cut]
  | cons record records ih =>
    obtain ⟨hrecord, hrecords⟩ := List.forall_mem_cons.1 h
    rw [framed_cons, List.append_assoc, cut_append hrecord, List.nil_append, List.cons_append, cut,
      if_pos rfl, ih hrecords]

theorem nonEmpty_framed {records : List (List α)} (h : ∀ record ∈ records, sep ∉ record) :
    nonEmpty sep (framed sep records) = records.filter fun record => !record.isEmpty := by
  have hcut := cut_framed h (List.not_mem_nil (a := sep))
  rw [List.append_nil] at hcut
  simp [nonEmpty, hcut]

/-- Reading goes on where it stopped, however the stream comes in pieces. -/
theorem cut_concat (current stream more : List α) :
    cut sep current (stream ++ more) =
      ((cut sep current stream).1 ++ (cut sep (cut sep current stream).2 more).1,
        (cut sep (cut sep current stream).2 more).2) := by
  induction stream generalizing current with
  | nil => simp [cut]
  | cons a stream ih =>
    rw [List.cons_append, cut, cut]
    by_cases ha : a = sep
    · rw [if_pos ha, if_pos ha, ih, List.cons_append]
    · rw [if_neg ha, if_neg ha, ih]

/-- **Whoever has only the beginning of the stream** has the first records. -/
theorem cut_of_part {records : List (List α)} (h : ∀ record ∈ records, sep ∉ record)
    {stream : List α} (hstream : stream <+: framed sep records) :
    (cut sep [] stream).1 <+: records := by
  obtain ⟨more, hmore⟩ := hstream
  have hcut := cut_framed h (List.not_mem_nil (a := sep))
  rw [List.append_nil, ← hmore, cut_concat] at hcut
  exact ⟨_, congrArg Prod.fst hcut⟩

end AdsbBridge.Lib.Lines
