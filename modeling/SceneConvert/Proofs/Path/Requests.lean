import Mathlib.Data.List.Nodup
import SceneConvert.Proofs.Path.OutputName

/-!
# SceneConvert.Proofs.Path.Requests

Names on request. The first request for a name gets the name itself, and every later one gets it with
the number of requests before.

* `Path.nth`, `requestNumbers`: what the requests of a list get.
* `mem_requestNumbers`, `nodup_requestNumbers`: every request is told apart by its name and number.
* `nodup_handedOut_iff`: when no two of the paths handed out, and no path and the main one, are the
  same.
-/

namespace SceneConvert

namespace Path

/-- What the request for `base` behind `n` others gets. -/
def nth (base : Path) (n : Nat) : Path := if n = 0 then base else base.numbered n

/-- The requests of a list, each with the number of earlier ones for the same name, those in `earlier`
included. -/
def requestNumbers (earlier : List Path) : List Path → List (Path × Nat)
  | [] => []
  | b :: bs => (b, earlier.count b) :: requestNumbers (b :: earlier) bs

theorem requestNumbers_congr {earlier earlier' : List Path}
    (h : ∀ b, earlier.count b = earlier'.count b) (bs : List Path) :
    requestNumbers earlier bs = requestNumbers earlier' bs := by
  induction bs generalizing earlier earlier' with
  | nil => rfl
  | cons b bs ih =>
    have hcons : ∀ c, (b :: earlier).count c = (b :: earlier').count c := by
      intro c
      rw [List.count_cons, List.count_cons, h]
    rw [requestNumbers, requestNumbers, h, ih hcons]

theorem requestNumbers_append (earlier bs cs : List Path) :
    requestNumbers earlier (bs ++ cs) =
      requestNumbers earlier bs ++ requestNumbers (bs ++ earlier) cs := by
  induction bs generalizing earlier with
  | nil => rfl
  | cons b bs ih =>
    have hcount : ∀ c, (bs ++ b :: earlier).count c = (b :: bs ++ earlier).count c := by
      intro c
      simp only [List.cons_append, List.count_append, List.count_cons]
      omega
    rw [List.cons_append, requestNumbers, requestNumbers, ih, requestNumbers_congr hcount]
    rfl

theorem mem_requestNumbers {earlier bs : List Path} {b : Path} {n : Nat} :
    (b, n) ∈ requestNumbers earlier bs ↔
      earlier.count b ≤ n ∧ n < earlier.count b + bs.count b := by
  induction bs generalizing earlier with
  | nil => simp [requestNumbers]
  | cons a bs ih =>
    rw [requestNumbers, List.mem_cons, ih, Prod.mk.injEq, List.count_cons, List.count_cons]
    by_cases h : a = b
    · subst h
      simp only [beq_self_eq_true, ↓reduceIte, true_and]
      omega
    · have h' : ¬b = a := fun e => h e.symm
      simp [h, h']

theorem nodup_requestNumbers (earlier bs : List Path) : (requestNumbers earlier bs).Nodup := by
  induction bs generalizing earlier with
  | nil => exact List.nodup_nil
  | cons b bs ih =>
    refine List.nodup_cons.2 ⟨fun h => ?_, ih _⟩
    have hle := (mem_requestNumbers.1 h).1
    rw [List.count_cons_self] at hle
    omega

/-- What a list of requests gets. -/
def handedOut (bs : List Path) : List Path := (requestNumbers [] bs).map fun r => r.1.nth r.2

theorem mem_handedOut {bs : List Path} {p : Path} :
    p ∈ handedOut bs ↔ ∃ b n, n < bs.count b ∧ p = b.nth n := by
  simp only [handedOut, List.mem_map, Prod.exists, mem_requestNumbers, List.count_nil, Nat.zero_le,
    true_and, Nat.zero_add]
  constructor
  · rintro ⟨b, n, hn, rfl⟩
    exact ⟨b, n, hn, rfl⟩
  · rintro ⟨b, n, hn, rfl⟩
    exact ⟨b, n, hn, rfl⟩

/-- No requested name is that of the main file, and no number makes a requested name into that of the
main file or into another requested name. -/
def Apart (main : Path) (bs : List Path) : Prop :=
  ∀ b ∈ bs, b ≠ main ∧ ∀ n, 0 < n → n < bs.count b → b.numbered n ≠ main ∧ b.numbered n ∉ bs

section

variable {bs : List Path} (hbs : ∀ b ∈ bs, ∃ o : OutputName, b = o.path)

include hbs

/-- Two different requests get the same only where a number makes one name into another. -/
theorem eq_of_nth {b c : Path} {m n : Nat} (hb : b ∈ bs) (hc : c ∈ bs) (hm : m = 0 ∨ b.numbered m ∉ bs)
    (hn : n = 0 ∨ c.numbered n ∉ bs) (h : b.nth m = c.nth n) : b = c ∧ m = n := by
  unfold nth at h
  split at h
  · rename_i hm0
    split at h
    · rename_i hn0
      exact ⟨h, hm0.trans hn0.symm⟩
    · rename_i hn0
      exact absurd (h ▸ hb) (hn.resolve_left hn0)
  · rename_i hm0
    split at h
    · exact absurd (h ▸ hc) (hm.resolve_left hm0)
    · obtain ⟨o, rfl⟩ := hbs b hb
      obtain ⟨o', rfl⟩ := hbs c hc
      rw [OutputName.numbered_path, OutputName.numbered_path] at h
      exact OutputName.eq_of_numbered h

/-- The paths handed out and that of the main file are all different exactly if the names are apart. -/
theorem nodup_handedOut_iff (main : Path) : (main :: handedOut bs).Nodup ↔ Apart main bs := by
  have hfirst {b : Path} (hb : b ∈ bs) : b ∈ handedOut bs :=
    mem_handedOut.2 ⟨b, 0, List.count_pos_iff.2 hb, rfl⟩
  have hlater {b : Path} {n : Nat} (hn : 0 < n) (hlt : n < bs.count b) :
      b.numbered n ∈ handedOut bs :=
    mem_handedOut.2 ⟨b, n, hlt, by simp [nth, Nat.ne_of_gt hn]⟩
  have hmem {b : Path} {n : Nat} (hlt : n < bs.count b) : b ∈ bs :=
    List.count_pos_iff.1 (Nat.zero_lt_of_lt hlt)
  rw [List.nodup_cons]
  constructor
  · intro ⟨hmain, hnodup⟩ b hb
    refine ⟨fun h => hmain (h ▸ hfirst hb), fun n hn hlt => ⟨fun h => ?_, fun hmem => ?_⟩⟩
    · exact hmain (h ▸ hlater hn hlt)
    · have hinj := (List.nodup_map_iff_inj_on (nodup_requestNumbers [] bs)).1 hnodup
      have heq := hinj (b, n) (mem_requestNumbers.2 (by simpa using hlt)) (b.numbered n, 0)
        (mem_requestNumbers.2 (by simpa using hmem)) (by simp [nth, Nat.ne_of_gt hn])
      exact absurd (congrArg Prod.snd heq) (Nat.ne_of_gt hn)
  · intro hapart
    have hfresh {b : Path} {n : Nat} (hlt : n < bs.count b) : n = 0 ∨ b.numbered n ∉ bs := by
      rcases Nat.eq_zero_or_pos n with hn | hn
      · exact .inl hn
      · exact .inr ((hapart b (hmem hlt)).2 n hn hlt).2
    constructor
    · intro h
      obtain ⟨b, n, hlt, hmain⟩ := mem_handedOut.1 h
      have hb := hapart b (hmem hlt)
      unfold nth at hmain
      split at hmain
      · exact hb.1 hmain.symm
      · rename_i hn
        exact (hb.2 n (Nat.pos_of_ne_zero hn) hlt).1 hmain.symm
    · refine (List.nodup_map_iff_inj_on (nodup_requestNumbers [] bs)).2 ?_
      intro (b, m) hbm (c, n) hcn heq
      have hm : m < bs.count b := by simpa using (mem_requestNumbers.1 hbm).2
      have hn : n < bs.count c := by simpa using (mem_requestNumbers.1 hcn).2
      obtain ⟨rfl, rfl⟩ := eq_of_nth hbs (hmem hm) (hmem hn) (hfresh hm) (hfresh hn) heq
      rfl

end

end Path

end SceneConvert
