import Cello.Lib.Uint32

/-!
# Blocks behind their length

A block is written as its length in four bytes, itself, and a trailer of four bytes that is worked out from it.  A
reader takes one block after the other.  Behind whole blocks it goes on (`blocks_frame`), inside of one it gives up
(`blocks_cut`), and what it has read to the end was written so (`frames_of_blocks`).
-/

namespace Lib.Framing

section

variable (trailer : List UInt8 → List UInt8)

def frame (block : List UInt8) : List UInt8 := Uint32.write block.length ++ (block ++ trailer block)

def next (b : List UInt8) : Option (List UInt8 × List UInt8) :=
  if b.length < 4 then none
  else if b.length < 4 + Uint32.read b + 4 then none
  else if ((b.drop (4 + Uint32.read b)).take 4) ≠ trailer ((b.drop 4).take (Uint32.read b)) then none
  else some ((b.drop 4).take (Uint32.read b), b.drop (4 + Uint32.read b + 4))

theorem eq_of_next {b block rest : List UInt8} (h : next trailer b = some (block, rest)) :
    b = frame trailer block ++ rest ∧ block.length < 2 ^ 32 := by
  unfold next at h
  split at h
  · cases h
  rename_i hheader
  split at h
  · cases h
  rename_i hentry
  split at h
  · cases h
  rename_i hsum
  rw [not_not] at hsum
  obtain ⟨rfl, rfl⟩ := Prod.mk.inj (Option.some.inj h)
  have hlength : ((b.drop 4).take (Uint32.read b)).length = Uint32.read b := by
    rw [List.length_take, List.length_drop]
    omega
  refine ⟨?_, by rw [hlength]; exact Uint32.read_lt b⟩
  have hrest : b.drop (4 + Uint32.read b) =
      (b.drop (4 + Uint32.read b)).take 4 ++ b.drop (4 + Uint32.read b + 4) := by
    have hcut := List.take_append_drop 4 (b.drop (4 + Uint32.read b))
    rwa [List.drop_drop, eq_comm] at hcut
  have hbody : b.drop 4 = (b.drop 4).take (Uint32.read b) ++ b.drop (4 + Uint32.read b) := by
    have hcut := List.take_append_drop (Uint32.read b) (b.drop 4)
    rwa [List.drop_drop, eq_comm] at hcut
  have hwrite : Uint32.write (Uint32.read b) = b.take 4 := Uint32.write_read (by omega)
  rw [frame, hlength, hwrite, ← hsum, List.append_assoc, List.append_assoc, ← hrest, ← hbody, List.take_append_drop]

theorem length_of_next {b block rest : List UInt8} (h : next trailer b = some (block, rest)) :
    rest.length < b.length := by
  obtain ⟨rfl, -⟩ := eq_of_next trailer h
  rw [frame, List.length_append, List.length_append, Uint32.length_write]
  omega

/-- The blocks of a file. -/
def blocks (b : List UInt8) : Option (List (List UInt8)) :=
  if b = [] then some []
  else
    match _h : next trailer b with
    | none => none
    | some (block, rest) => (blocks rest).map (block :: ·)
termination_by b.length
decreasing_by exact length_of_next trailer _h

theorem blocks_nil : blocks trailer [] = some [] := by
  rw [blocks, if_pos rfl]

theorem blocks_next {b : List UInt8} (hne : b ≠ []) :
    blocks trailer b = (next trailer b).bind fun p => (blocks trailer p.2).map (p.1 :: ·) := by
  rw [blocks, if_neg hne]
  split
  · rename_i h
    rw [h, Option.bind_none]
  · rename_i h
    rw [h, Option.bind_some]

/-- **A file that is read to the end is blocks that were written, and nothing else.** -/
theorem frames_of_blocks {b : List UInt8} {bs : List (List UInt8)} (h : blocks trailer b = some bs) :
    b = bs.flatMap (frame trailer) ∧ ∀ block ∈ bs, block.length < 2 ^ 32 := by
  induction bs generalizing b with
  | nil =>
    by_cases hb : b = []
    · exact ⟨hb, by simp⟩
    rw [blocks_next trailer hb] at h
    obtain ⟨p, -, hp⟩ := Option.bind_eq_some_iff.1 h
    obtain ⟨rest, -, hrest⟩ := Option.map_eq_some_iff.1 hp
    cases hrest
  | cons block bs ih =>
    have hb : b ≠ [] := by
      rintro rfl
      rw [blocks_nil] at h
      cases h
    rw [blocks_next trailer hb] at h
    obtain ⟨⟨block', rest⟩, hnext, hp⟩ := Option.bind_eq_some_iff.1 h
    obtain ⟨bs', hrest, hcons⟩ := Option.map_eq_some_iff.1 hp
    obtain ⟨rfl, rfl⟩ := List.cons.inj hcons
    obtain ⟨hfile, hlength⟩ := eq_of_next trailer hnext
    obtain ⟨hframes, hall⟩ := ih hrest
    refine ⟨?_, ?_⟩
    · rw [List.flatMap_cons, ← hframes]
      exact hfile
    · intro c hc
      rcases List.mem_cons.1 hc with rfl | hc
      · exact hlength
      · exact hall c hc

variable (htrailer : ∀ b, (trailer b).length = 4)

include htrailer

theorem length_frame (block : List UInt8) : (frame trailer block).length = 4 + block.length + 4 := by
  rw [frame, List.length_append, List.length_append, Uint32.length_write, htrailer]
  omega

theorem next_frame {block : List UInt8} (hblock : block.length < 2 ^ 32) (rest : List UInt8) :
    next trailer (frame trailer block ++ rest) = some (block, rest) := by
  have hlength := length_frame trailer htrailer block
  have hread : Uint32.read (frame trailer block ++ rest) = block.length := by
    rw [frame, List.append_assoc]
    exact Uint32.read_write hblock _
  have hbody : ((frame trailer block ++ rest).drop 4) = block ++ (trailer block ++ rest) := by
    rw [frame, List.append_assoc, List.append_assoc]
    rfl
  have hsum : ((frame trailer block ++ rest).drop (4 + block.length)) = trailer block ++ rest := by
    rw [← List.drop_drop, hbody, List.drop_left]
  have hrest : ((frame trailer block ++ rest).drop (4 + block.length + 4)) = rest := by
    rw [← hlength, List.drop_left]
  unfold next
  rw [hread, hbody, hsum, hrest, List.take_left, List.take_left' (htrailer block)]
  rw [if_neg (by rw [List.length_append]; omega), if_neg (by rw [List.length_append]; omega), if_neg (not_not.2 rfl)]

theorem next_cut {block : List UInt8} (hblock : block.length < 2 ^ 32) {n : ℕ}
    (hn : n < (frame trailer block).length) : next trailer ((frame trailer block).take n) = none := by
  have htake : ((frame trailer block).take n).length = n := by
    rw [List.length_take]
    omega
  unfold next
  split
  · rfl
  rename_i hheader
  have hread : Uint32.read ((frame trailer block).take n) = block.length := by
    have hsplit : (frame trailer block).take n =
        Uint32.write block.length ++ (block ++ trailer block).take (n - 4) := by
      rw [frame, List.take_append, Uint32.length_write, List.take_of_length_le]
      rw [Uint32.length_write]
      omega
    rw [hsplit]
    exact Uint32.read_write hblock _
  have hlength := length_frame trailer htrailer block
  rw [if_pos (by rw [hread, htake]; omega)]

theorem blocks_frame {block : List UInt8} (hblock : block.length < 2 ^ 32) (rest : List UInt8) :
    blocks trailer (frame trailer block ++ rest) = (blocks trailer rest).map (block :: ·) := by
  have hne : frame trailer block ++ rest ≠ [] := by
    rw [frame, Uint32.write]
    simp
  rw [blocks_next trailer hne, next_frame trailer htrailer hblock, Option.bind_some]

theorem blocks_flatMap {bs : List (List UInt8)} (hbs : ∀ block ∈ bs, block.length < 2 ^ 32) :
    blocks trailer (bs.flatMap (frame trailer)) = some bs := by
  induction bs with
  | nil => exact blocks_nil trailer
  | cons block bs ih =>
    rw [List.flatMap_cons, blocks_frame trailer htrailer (hbs block List.mem_cons_self),
      ih fun c hc => hbs c (List.mem_cons_of_mem _ hc), Option.map_some]

theorem blocks_cut {block : List UInt8} (hblock : block.length < 2 ^ 32) {n : ℕ} (hpos : 0 < n)
    (hn : n < (frame trailer block).length) : blocks trailer ((frame trailer block).take n) = none := by
  have hne : (frame trailer block).take n ≠ [] := by
    intro hnil
    have hlength := congrArg List.length hnil
    rw [List.length_take, List.length_nil] at hlength
    omega
  rw [blocks_next trailer hne, next_cut trailer htrailer hblock hn, Option.bind_none]

/-- **A file that was cut** is read where the cut is between two blocks, and not otherwise. -/
theorem blocks_take {bs : List (List UInt8)} (hbs : ∀ block ∈ bs, block.length < 2 ^ 32) {n : ℕ}
    (hn : n ≤ (bs.flatMap (frame trailer)).length) :
    (∃ m ≤ bs.length, n = ((bs.take m).flatMap (frame trailer)).length ∧
      blocks trailer ((bs.flatMap (frame trailer)).take n) = some (bs.take m)) ∨
    ((∀ m ≤ bs.length, n ≠ ((bs.take m).flatMap (frame trailer)).length) ∧
      blocks trailer ((bs.flatMap (frame trailer)).take n) = none) := by
  rcases Nat.eq_zero_or_pos n with rfl | hpos
  · refine .inl ⟨0, Nat.zero_le _, rfl, ?_⟩
    rw [List.take_zero, List.take_zero, blocks_nil]
  induction bs generalizing n with
  | nil => exact absurd hn (by rw [List.flatMap_nil, List.length_nil]; omega)
  | cons block bs ih =>
    have hblock := hbs block List.mem_cons_self
    have hlength := length_frame trailer htrailer block
    rw [List.flatMap_cons] at hn ⊢
    rcases Nat.lt_or_ge n (frame trailer block).length with hinside | hbehind
    · refine .inr ⟨?_, ?_⟩
      · intro m _ hm
        cases m with
        | zero => exact absurd hm (by rw [List.take_zero, List.flatMap_nil, List.length_nil]; omega)
        | succ m =>
          rw [List.take_succ_cons, List.flatMap_cons, List.length_append] at hm
          omega
      · rw [List.take_append_of_le_length (by omega)]
        exact blocks_cut trailer htrailer hblock hpos hinside
    obtain ⟨k, rfl⟩ := Nat.exists_eq_add_of_le hbehind
    rw [List.take_length_add_append, blocks_frame trailer htrailer hblock]
    rcases Nat.eq_zero_or_pos k with rfl | hk
    · refine .inl ⟨1, by rw [List.length_cons]; omega, ?_, ?_⟩
      · rw [List.take_succ_cons, List.take_zero, List.flatMap_cons, List.flatMap_nil, List.append_nil, Nat.add_zero]
      · rw [List.take_zero, blocks_nil, List.take_succ_cons, List.take_zero, Option.map_some]
    rw [List.length_append] at hn
    rcases ih (fun c hc => hbs c (List.mem_cons_of_mem _ hc)) (Nat.le_of_add_le_add_left hn) hk with
      ⟨m, hm, hk', hblocks⟩ | ⟨hnot, hblocks⟩
    · refine .inl ⟨m + 1, by rw [List.length_cons]; omega, ?_, ?_⟩
      · rw [List.take_succ_cons, List.flatMap_cons, List.length_append, ← hk']
      · rw [hblocks, List.take_succ_cons, Option.map_some]
    · refine .inr ⟨?_, by rw [hblocks, Option.map_none]⟩
      intro m hm hm'
      cases m with
      | zero => exact absurd hm' (by rw [List.take_zero, List.flatMap_nil, List.length_nil]; omega)
      | succ m =>
        rw [List.take_succ_cons, List.flatMap_cons, List.length_append] at hm'
        rw [List.length_cons] at hm
        exact hnot m (by omega) (by omega)

end

end Lib.Framing
