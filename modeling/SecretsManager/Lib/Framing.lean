import SecretsManager.Lib.IdealAead

/-!
# Byte strings that can be cut back apart

A prefix-free code can be read off the front of any byte string in one way only,
so a concatenation of such codes determines its parts. Two codes are given: a
fixed number of bytes, and frames, in which every byte is announced and the end
is marked. An authenticated cipher made of frames satisfies every ideal law, so
those laws can be assumed together.
-/

namespace Framing

abbrev Bytes := List UInt8

variable {α : Type}

def PrefixFree (code : α → Bytes) : Prop :=
  ∀ p q x y, code p ++ x = code q ++ y → p = q ∧ x = y

theorem PrefixFree.injective {code : α → Bytes} (free : PrefixFree code) {p q : α}
    (same : code p = code q) : p = q :=
  (free p q [] [] (by rw [same])).1

/-- Two strings of one length are cut off the front in the same place. -/
theorem append_inj_of_length {p q x y : Bytes} (length : p.length = q.length)
    (same : p ++ x = q ++ y) : p = q ∧ x = y :=
  List.append_inj same length

/-- A string is cut off at the first mark. -/
theorem append_inj_of_mark {mark : UInt8} {p q x y : Bytes} (hp : mark ∉ p) (hq : mark ∉ q)
    (same : p ++ mark :: x = q ++ mark :: y) : p = q ∧ x = y := by
  induction p generalizing q with
  | nil =>
    cases q with
    | nil => exact ⟨rfl, List.tail_eq_of_cons_eq same⟩
    | cons b q => exact absurd (List.head_eq_of_cons_eq same ▸ List.mem_cons_self) hq
  | cons a p ih =>
    cases q with
    | nil => exact absurd (List.head_eq_of_cons_eq same ▸ List.mem_cons_self) hp
    | cons b q =>
      obtain ⟨rfl, rest⟩ := List.cons.inj same
      obtain ⟨rfl, rfl⟩ := ih (fun h => hp (List.mem_cons_of_mem _ h))
        (fun h => hq (List.mem_cons_of_mem _ h)) rest
      exact ⟨rfl, rfl⟩

/-! ## Frames -/

def frame : Bytes → Bytes
  | [] => [0]
  | b :: rest => 1 :: b :: frame rest

def unframe : Bytes → Option Bytes
  | [0] => some []
  | 1 :: b :: rest => (unframe rest).map (b :: ·)
  | _ => none

theorem frame_prefixFree : PrefixFree frame := by
  intro p
  induction p with
  | nil =>
    intro q x y h
    cases q with
    | nil => exact ⟨rfl, by simpa [frame] using h⟩
    | cons b q => simp [frame] at h
  | cons a p ih =>
    intro q x y h
    cases q with
    | nil => simp [frame] at h
    | cons b q =>
      simp only [frame, List.cons_append, List.cons.injEq, true_and] at h
      obtain ⟨rfl, rest⟩ := h
      obtain ⟨rfl, rfl⟩ := ih q x y rest
      exact ⟨rfl, rfl⟩

theorem unframe_frame (p : Bytes) : unframe (frame p) = some p := by
  induction p with
  | nil => rfl
  | cons b p ih => simp [frame, unframe, ih]

theorem frame_unframe {c p : Bytes} (h : unframe c = some p) : c = frame p := by
  induction c using unframe.induct generalizing p with
  | case1 =>
    simp only [unframe, Option.some.injEq] at h
    rw [← h]
    rfl
  | case2 b rest ih =>
    simp only [unframe, Option.map_eq_some_iff] at h
    obtain ⟨q, hq, rfl⟩ := h
    rw [ih hq]
    rfl
  | case3 c h1 h2 =>
    rw [unframe] at h
    · cases h
    · exact h1
    · exact h2

/-- The frames of a list one after the other. -/
def frames (parts : List Bytes) : Bytes := parts.flatMap frame

def readFrames : Bytes → Option (List Bytes)
  | [] => some []
  | 0 :: rest => (readFrames rest).map ([] :: ·)
  | 1 :: b :: rest =>
    match readFrames rest with
    | some (p :: parts) => some ((b :: p) :: parts)
    | _ => none
  | _ => none

theorem readFrames_frame (p rest : Bytes) :
    readFrames (frame p ++ rest) = (readFrames rest).map (p :: ·) := by
  induction p with
  | nil => rfl
  | cons b p ih =>
    have cut : readFrames (frame (b :: p) ++ rest) =
        match readFrames (frame p ++ rest) with
        | some (p :: parts) => some ((b :: p) :: parts)
        | _ => none := rfl
    rw [cut, ih]
    cases readFrames rest <;> rfl

theorem readFrames_frames (parts : List Bytes) : readFrames (frames parts) = some parts := by
  induction parts with
  | nil => rfl
  | cons p parts ih =>
    have cut : frames (p :: parts) = frame p ++ frames parts := rfl
    rw [cut, readFrames_frame, ih]
    rfl

theorem frames_three {k n a k' n' a' x y : Bytes}
    (same : frames [k, n, a] ++ x = frames [k', n', a'] ++ y) :
    k = k' ∧ n = n' ∧ a = a' ∧ x = y := by
  simp only [frames, List.flatMap_cons, List.flatMap_nil, List.append_nil,
    List.append_assoc] at same
  obtain ⟨hk, same⟩ := frame_prefixFree k k' _ _ same
  obtain ⟨hn, same⟩ := frame_prefixFree n n' _ _ same
  obtain ⟨ha, same⟩ := frame_prefixFree a a' _ _ same
  exact ⟨hk, hn, ha, same⟩

/-! ## A cipher made of frames -/

open IdealAead

/-- Opening compares the head of the ciphertext with key, nonce and data. -/
def framedAead : Aead Bytes Bytes Bytes Bytes Bytes where
  encrypt k n a m := some (frames [k, n, a] ++ frame m)
  decrypt k n a c := ((frames [k, n, a]).isPrefixOf? c).bind unframe

theorem framedAead_decrypt_iff (k n a c m : Bytes) :
    framedAead.decrypt k n a c = some m ↔ c = frames [k, n, a] ++ frame m := by
  simp only [framedAead, Option.bind_eq_some_iff, List.isPrefixOf?_eq_some_iff_append_eq]
  constructor
  · rintro ⟨rest, rfl, opens⟩
    rw [frame_unframe opens]
  · rintro rfl
    exact ⟨frame m, rfl, unframe_frame m⟩

theorem framedAead_ideal : Ideal framedAead where
  decrypt_encrypt k n a m c sealed :=
    (framedAead_decrypt_iff k n a c m).mpr (Option.some.inj sealed).symm
  encrypt_decrypt k n a m c opens :=
    congrArg some ((framedAead_decrypt_iff k n a c m).mp opens).symm
  separated k k' n a a' m m' c first second := by
    have same := Option.some.inj (first.trans second.symm)
    obtain ⟨hk, _, ha, _⟩ := frames_three same
    exact ⟨hk, ha⟩

theorem framedAead_total : Total framedAead := fun _ _ _ _ => ⟨_, rfl⟩

end Framing
