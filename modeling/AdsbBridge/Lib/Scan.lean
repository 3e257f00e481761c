import Mathlib.Algebra.GroupWithZero.Nat
import Mathlib.Data.List.Basic

/-! # Left-to-right scans that jump over what they accept

A scan looks at one position after the other. `decide p = some (b, skip)`
accepts `b` at `p` and goes on at `p + 1 + skip`; `none` goes on at `p + 1`.
The second half compares one scan of a stream with a scan in pieces: between
two pieces the last `keep` samples are kept and looked at again, and a
position is decided once `window` samples follow it. -/
namespace AdsbBridge.Lib.Scan

variable {β : Type}

/-- What a scan of `[pos, limit)` accepts, with the positions. -/
def hits (decide : ℕ → Option (β × ℕ)) (limit pos : ℕ) : List (ℕ × β) :=
  if pos < limit then
    match decide pos with
    | some (b, skip) => (pos, b) :: hits decide limit (pos + 1 + skip)
    | none => hits decide limit (pos + 1)
  else []
termination_by limit - pos

/-- Where a scan of `[pos, limit)` stands when it stops. -/
def resume (decide : ℕ → Option (β × ℕ)) (limit pos : ℕ) : ℕ :=
  if pos < limit then
    match decide pos with
    | some (_, skip) => resume decide limit (pos + 1 + skip)
    | none => resume decide limit (pos + 1)
  else pos
termination_by limit - pos

variable {decide decide' : ℕ → Option (β × ℕ)} {limit pos : ℕ}

theorem hits_of_le (h : limit ≤ pos) : hits decide limit pos = [] := by
  rw [hits, if_neg (by omega)]

theorem resume_of_le (h : limit ≤ pos) : resume decide limit pos = pos := by
  rw [resume, if_neg (by omega)]

theorem hits_none (h : decide pos = none) : hits decide limit pos = hits decide limit (pos + 1) := by
  by_cases hl : pos < limit
  · rw [hits, if_pos hl, h]
  · rw [hits_of_le (by omega), hits_of_le (by omega)]

theorem hits_some {b : β} {skip : ℕ} (hl : pos < limit) (h : decide pos = some (b, skip)) :
    hits decide limit pos = (pos, b) :: hits decide limit (pos + 1 + skip) := by
  rw [hits, if_pos hl, h]

theorem resume_none (hl : pos < limit) (h : decide pos = none) :
    resume decide limit pos = resume decide limit (pos + 1) := by
  rw [resume, if_pos hl, h]

theorem resume_some {b : β} {skip : ℕ} (hl : pos < limit) (h : decide pos = some (b, skip)) :
    resume decide limit pos = resume decide limit (pos + 1 + skip) := by
  rw [resume, if_pos hl, h]

theorem le_resume (decide : ℕ → Option (β × ℕ)) (limit pos : ℕ) :
    pos ≤ resume decide limit pos := by
  fun_induction resume decide limit pos <;> omega

theorem limit_le_resume (decide : ℕ → Option (β × ℕ)) (limit pos : ℕ) :
    limit ≤ resume decide limit pos := by
  fun_induction resume decide limit pos <;> omega

theorem mem_hits {p : ℕ} {b : β} (h : (p, b) ∈ hits decide limit pos) :
    pos ≤ p ∧ p < limit ∧ ∃ skip, decide p = some (b, skip) := by
  fun_induction hits decide limit pos with
  | case1 pos hl b' skip hd ih =>
    rcases List.mem_cons.mp h with he | hm
    · cases he; exact ⟨Nat.le_refl _, hl, skip, hd⟩
    · obtain ⟨h₁, h₂, h₃⟩ := ih hm
      exact ⟨by omega, h₂, h₃⟩
  | case2 pos hl hd ih =>
    obtain ⟨h₁, h₂, h₃⟩ := ih h
    exact ⟨by omega, h₂, h₃⟩
  | case3 pos hl => simp at h

/-- A scan up to a further limit goes on where the shorter one stopped. -/
theorem hits_append (decide : ℕ → Option (β × ℕ)) {l₁ l₂ : ℕ} (hl : l₁ ≤ l₂) (pos : ℕ) :
    hits decide l₂ pos = hits decide l₁ pos ++ hits decide l₂ (resume decide l₁ pos) := by
  fun_induction hits decide l₁ pos with
  | case1 pos hlt b skip hd ih =>
    rw [hits_some (by omega) hd, resume_some hlt hd, ih]; rfl
  | case2 pos hlt hd ih => rw [hits_none hd, resume_none hlt hd, ih]
  | case3 pos hlt => rw [resume_of_le (by omega)]; rfl

theorem resume_resume (decide : ℕ → Option (β × ℕ)) {l₁ l₂ : ℕ} (hl : l₁ ≤ l₂) (pos : ℕ) :
    resume decide l₂ (resume decide l₁ pos) = resume decide l₂ pos := by
  fun_induction resume decide l₁ pos with
  | case1 pos hlt b skip hd ih => rw [ih, ← resume_some (by omega) hd]
  | case2 pos hlt hd ih => rw [ih, ← resume_none (by omega) hd]
  | case3 pos hlt => rfl

theorem hits_congr (h : ∀ p, pos ≤ p → p < limit → decide p = decide' p) :
    hits decide limit pos = hits decide' limit pos := by
  fun_induction hits decide limit pos with
  | case1 pos hl b skip hd ih =>
    rw [hits_some hl ((h pos (Nat.le_refl _) hl).symm.trans hd), ih (fun p hp => h p (by omega))]
  | case2 pos hl hd ih =>
    rw [hits_none ((h pos (Nat.le_refl _) hl).symm.trans hd), ih (fun p hp => h p (by omega))]
  | case3 pos hl => rw [hits_of_le (by omega)]

/-- Counting positions from another origin only renames them. -/
theorem hits_shift (decide : ℕ → Option (β × ℕ)) (base limit pos : ℕ) :
    (hits (fun p => decide (base + p)) limit pos).map (fun h => (base + h.1, h.2)) =
      hits decide (base + limit) (base + pos) := by
  fun_induction hits (fun p => decide (base + p)) limit pos with
  | case1 pos hl b skip hd ih =>
    rw [hits_some (by omega) hd, List.map_cons, ih]
    simp only [Nat.add_assoc]
  | case2 pos hl hd ih => rw [hits_none hd, ih]; rfl
  | case3 pos hl => rw [hits_of_le (by omega), List.map_nil]

/-- Positions that are not accepted can be left out in front. -/
theorem hits_of_none {a b : ℕ} (hab : a ≤ b)
    (h : ∀ p, a ≤ p → p < b → p < limit → decide p = none) :
    hits decide limit a = hits decide limit b := by
  induction hab with
  | refl => rfl
  | @step m _ ih =>
    rw [ih (fun p hp hm => h p hp (by omega))]
    by_cases hl : m < limit
    · exact hits_none (h m (by omega) (by omega) hl)
    · rw [hits_of_le (by omega), hits_of_le (by omega)]

/-- If some position in `[a, b)` is acceptable, a scan from `a` accepts one there. -/
theorem hits_head_lt {a b q : ℕ} (haq : a ≤ q) (hqb : q < b) (hql : q < limit)
    (hq : decide q ≠ none) : ∃ p x rest, hits decide limit a = (p, x) :: rest ∧ p < b := by
  obtain ⟨n, hn⟩ : ∃ n, q = a + n := ⟨q - a, by omega⟩
  induction n generalizing a with
  | zero =>
    obtain ⟨⟨x, skip⟩, hx⟩ := Option.ne_none_iff_exists'.mp hq
    have : a = q := by omega
    subst this
    exact ⟨a, x, _, hits_some hql hx, hqb⟩
  | succ n ih =>
    cases hd : decide a with
    | none =>
      rw [hits_none hd]
      exact ih (by omega) (by omega)
    | some r =>
      obtain ⟨x, skip⟩ := r
      exact ⟨a, x, _, hits_some (by omega) hd, by omega⟩

/-! ## Where a scan looks -/

/-- The positions at which a scan of `[pos, limit)` decides. -/
def looked (decide : ℕ → Option (β × ℕ)) (limit pos : ℕ) : List ℕ :=
  if pos < limit then
    match decide pos with
    | some (_, skip) => pos :: looked decide limit (pos + 1 + skip)
    | none => pos :: looked decide limit (pos + 1)
  else []
termination_by limit - pos

theorem mem_looked {p : ℕ} (h : p ∈ looked decide limit pos) : pos ≤ p ∧ p < limit := by
  fun_induction looked decide limit pos with
  | case1 pos hl b skip hd ih =>
    rcases List.mem_cons.1 h with rfl | hm
    · exact ⟨Nat.le_refl _, hl⟩
    · have := ih hm
      omega
  | case2 pos hl hd ih =>
    rcases List.mem_cons.1 h with rfl | hm
    · exact ⟨Nat.le_refl _, hl⟩
    · have := ih hm
      omega
  | case3 pos hl => cases h

/-- What is accepted is decided at the positions the scan looks at. -/
theorem hits_eq_looked (decide : ℕ → Option (β × ℕ)) (limit pos : ℕ) :
    hits decide limit pos =
      (looked decide limit pos).filterMap fun p => (decide p).map fun r => (p, r.1) := by
  fun_induction looked decide limit pos with
  | case1 pos hl b skip hd ih =>
    rw [hits_some hl hd, ih, List.filterMap_cons, hd]
    rfl
  | case2 pos hl hd ih =>
    rw [hits_none hd, ih, List.filterMap_cons, hd]
    rfl
  | case3 pos hl => rw [hits_of_le (by omega), List.filterMap_nil]

/-- **A scan looks at every position or passes over it** with something that it
accepted in front of it. -/
theorem looked_or_passed {p : ℕ} (hp : pos ≤ p) (hl : p < limit) :
    p ∈ looked decide limit pos ∨
      ∃ p' b skip, (p', b) ∈ hits decide limit pos ∧ decide p' = some (b, skip) ∧
        p' < p ∧ p < p' + 1 + skip := by
  fun_induction looked decide limit pos with
  | case1 pos hpos b skip hd ih =>
    rw [hits_some hpos hd]
    rcases Nat.lt_or_ge p (pos + 1 + skip) with hlt | hge
    · rcases Nat.eq_or_lt_of_le hp with rfl | hgt
      · exact .inl List.mem_cons_self
      · exact .inr ⟨pos, b, skip, List.mem_cons_self, hd, hgt, hlt⟩
    · rcases ih hge with hm | ⟨p', b', skip', hm, hd', hlt, hlt'⟩
      · exact .inl (List.mem_cons_of_mem _ hm)
      · exact .inr ⟨p', b', skip', List.mem_cons_of_mem _ hm, hd', hlt, hlt'⟩
  | case2 pos hpos hd ih =>
    rw [hits_none hd]
    rcases Nat.eq_or_lt_of_le hp with rfl | hgt
    · exact .inl List.mem_cons_self
    · rcases ih hgt with hm | hpassed
      · exact .inl (List.mem_cons_of_mem _ hm)
      · exact .inr hpassed
  | case3 pos hpos => omega

/-! ## Scanning a stream in pieces -/

section Pieces

variable (decide : ℕ → Option (β × ℕ)) (window keep : ℕ)

/-- The scan of a stream that arrives in pieces of the given lengths, `n`
samples being there already: each piece is scanned together with the last
`keep` samples before it. -/
def pieces : ℕ → List ℕ → List (ℕ × β)
  | _, [] => []
  | n, c :: cs => hits decide (n + c - window) (n - keep) ++ pieces (n + c) cs

/-- Where one scan over all of the first `n` samples stands. -/
def standing (n : ℕ) : ℕ := resume decide (n - window) 0

/-- A piece is clean when nothing acceptable is looked at again: no position
among the kept samples that the single scan has passed already. -/
def CleanPiece (n c : ℕ) : Prop :=
  ∀ q, n - keep ≤ q → q < standing decide window n → q < n + c - window → decide q = none

def Clean : ℕ → List ℕ → Prop
  | _, [] => True
  | n, c :: cs => CleanPiece decide window keep n c ∧ Clean (n + c) cs

variable {decide window keep}

/-- **Scanning in pieces agrees with one scan exactly when every piece is clean.** -/
theorem pieces_eq_iff (hk : window ≤ keep) (n : ℕ) (cs : List ℕ) :
    pieces decide window keep n cs =
        hits decide (n + cs.sum - window) (standing decide window n) ↔
      Clean decide window keep n cs := by
  induction cs generalizing n with
  | nil =>
    have hs := limit_le_resume decide (n - window) 0
    simp [pieces, Clean, hits_of_le hs, standing]
  | cons c cs ih =>
    have hstart : n - keep ≤ standing decide window n :=
      Nat.le_trans (by omega) (limit_le_resume decide (n - window) 0)
    -- the single scan over all the rest passes through the end of this piece
    have hsplit : hits decide (n + (c :: cs).sum - window) (standing decide window n) =
        hits decide (n + c - window) (standing decide window n) ++
          hits decide (n + c + cs.sum - window) (standing decide window (n + c)) := by
      rw [List.sum_cons, ← Nat.add_assoc,
        hits_append decide (show n + c - window ≤ n + c + cs.sum - window by omega), standing,
        standing, resume_resume decide (by omega)]
    rw [pieces, Clean, hsplit, ← ih (n + c)]
    constructor
    · intro he
      have hclean : CleanPiece decide window keep n c := by
        intro q hq hqs hql
        by_contra hd
        obtain ⟨p, x, rest, hp, hlt⟩ := hits_head_lt (b := standing decide window n) hq hqs hql hd
        have hm : (p, x) ∈ hits decide (n + c - window) (standing decide window n) ++
            hits decide (n + c + cs.sum - window) (standing decide window (n + c)) := by
          rw [← he, hp]; simp
        rcases List.mem_append.mp hm with hm | hm
        · have := (mem_hits hm).1
          omega
        · have h₁ := (mem_hits hm).1
          have h₂ : standing decide window n ≤ standing decide window (n + c) := by
            rw [standing, standing, ← resume_resume decide (show n - window ≤ n + c - window by omega)]
            exact le_resume _ _ _
          omega
      refine ⟨hclean, ?_⟩
      rw [hits_of_none hstart hclean] at he
      exact List.append_cancel_left he
    · intro h
      obtain ⟨hclean, he⟩ := h
      rw [hits_of_none hstart hclean, he]

end Pieces

end AdsbBridge.Lib.Scan
