import Mathlib
import SceneConvert.Proofs.Statement.Resume

/-!
# SceneConvert.Proofs.Statement.Grammar

The grammar of scene texts, and that the reader accepts what derives from it and nothing else:

    scene     := operation*
    operation := action | action value (string value)*
    value     := '[' (string | number | truth)* ']' | number+ | string | truth

An action is a bare word that is neither a number nor a truth value, and runs of numbers are as long
as they can be.

* `Grammar.ValueAt`, `ParametersAt`, `OperationAt`, `Scene`: the derivations, with what they mean.
* `Parameter.lastOfEach`: of several parameters of one name, the last.
* `Fault.Clean`: nothing is wrong with the syntax.
* `valueAt_of_clean`, `ValueAt.readValue?` and so on: each part of the reader against its rule.
* `Event.clean_iff_scene`: the result.
-/

namespace SceneConvert

/-! ## Derivations -/

/-- Of several parameters of one name, the last. -/
def Parameter.lastOfEach : List Parameter → List Parameter
  | [] => []
  | p :: ps => if ps.any fun q => q.name == p.name then lastOfEach ps else p :: lastOfEach ps

namespace Grammar

/-- The tokens begin with a value, behind which are the last ones. A list of one number is this number; that
of one other element is so only if lists are collapsed. -/
inductive ValueAt (collapse : Bool) : List Lexeme → Value → List Lexeme → Prop
  | single {o e c : Lexeme} {ys : List Lexeme} :
    collapse = true → o.token = .openBracket → e.token.isScalar = true → c.token = .closeBracket →
    ValueAt collapse (o :: e :: c :: ys) (.ofToken e.token) ys
  | listed {o c : Lexeme} {es ys : List Lexeme} :
    (collapse = true → es.length ≠ 1) → o.token = .openBracket →
    (∀ e ∈ es, e.token.isScalar = true) → c.token = .closeBracket →
    ValueAt collapse (o :: (es ++ c :: ys)) (.list (es.map fun e => .ofToken e.token)) ys
  | number {n : Lexeme} {ys : List Lexeme} :
    n.token.isNumber = true → (∀ y ∈ ys.head?, y.token.isNumber = false) →
    ValueAt collapse (n :: ys) (.ofToken n.token) ys
  | numbers {n n' : Lexeme} {ns ys : List Lexeme} :
    n.token.isNumber = true → (∀ m ∈ n' :: ns, m.token.isNumber = true) →
    (∀ y ∈ ys.head?, y.token.isNumber = false) →
    ValueAt collapse (n :: (n' :: ns ++ ys)) (.list ((n :: n' :: ns).map fun m => .ofToken m.token)) ys
  | quoted {x : Lexeme} {s : String} {ys : List Lexeme} :
    x.token = .quoted s → ValueAt collapse (x :: ys) (.text s) ys
  | truth {x : Lexeme} {ys : List Lexeme} :
    x.token.isTruth = true → ValueAt collapse (x :: ys) (.ofToken x.token) ys

/-- The tokens begin with these parameters, not yet sorted out. -/
inductive ParametersAt (collapse : Bool) : List Lexeme → List Parameter → List Lexeme → Prop
  | nil {ys : List Lexeme} : ParametersAt collapse ys [] ys
  | cons {x : Lexeme} {key : String} {xs ys zs : List Lexeme} {v : Value} {ps : List Parameter} :
    x.token = .quoted key → ValueAt collapse xs v ys → ParametersAt collapse ys ps zs →
    ParametersAt collapse (x :: xs) (.declare key v :: ps) zs

/-- The tokens begin with an operation. Its operand is read with collapsed lists in any case. -/
inductive OperationAt (collapse : Bool) : List Lexeme → Statement → List Lexeme → Prop
  | bare {x : Lexeme} {w : String} {ys : List Lexeme} :
    x.token = .word w → x.token.isAction = true →
    OperationAt collapse (x :: ys) ⟨x.line, w, none, .empty⟩ ys
  | full {x : Lexeme} {w : String} {xs ys zs : List Lexeme} {v : Value} {ps : List Parameter} :
    x.token = .word w → x.token.isAction = true →
    ValueAt true xs v ys → ParametersAt collapse ys ps zs →
    OperationAt collapse (x :: xs) ⟨x.line, w, some v, ⟨Parameter.lastOfEach ps⟩⟩ zs

/-- The tokens are these operations, one after the other. -/
inductive Scene (collapse : Bool) : List Lexeme → List Statement → Prop
  | nil : Scene collapse [] []
  | cons {xs ys : List Lexeme} {st : Statement} {sts : List Statement} :
    OperationAt collapse xs st ys → Scene collapse ys sts → Scene collapse xs (st :: sts)

/-! What is behind a part is the end of the tokens. -/

section

variable {collapse : Bool} {xs ys : List Lexeme}

theorem ValueAt.suffix {v : Value} (h : ValueAt collapse xs v ys) : ys <:+ xs := by
  cases h with
  | @single o e c ys => exact ⟨[o, e, c], rfl⟩
  | @listed o c es ys => exact ⟨o :: (es ++ [c]), by simp⟩
  | number => exact List.suffix_cons _ _
  | @numbers n n' ns ys => exact ⟨n :: n' :: ns, rfl⟩
  | quoted | truth => exact List.suffix_cons _ _

theorem ParametersAt.suffix {ps : List Parameter} (h : ParametersAt collapse xs ps ys) : ys <:+ xs := by
  induction h with
  | nil => exact List.suffix_rfl
  | cons _ hv _ ih => exact (ih.trans hv.suffix).trans (List.suffix_cons _ _)

theorem OperationAt.suffix {st : Statement} (h : OperationAt collapse xs st ys) : ys <:+ xs := by
  cases h with
  | bare => exact List.suffix_cons _ _
  | full _ _ hv hps => exact (hps.suffix.trans hv.suffix).trans (List.suffix_cons _ _)

end

end Grammar

/-- Nothing is wrong with the syntax. -/
def Fault.Clean (fs : List Fault) : Prop := ∀ f ∈ fs, f.problem.kind ≠ .syntactic

/-- Nothing inside a token is wrong with the syntax. -/
def Lexeme.Lexical (xs : List Lexeme) : Prop := ∀ x ∈ xs, ∀ p ∈ x.faults, p.kind ≠ .syntactic

namespace Fault

variable {fs gs : List Fault}

@[simp] theorem clean_nil : Clean [] := List.forall_mem_nil _

@[simp] theorem clean_append : Clean (fs ++ gs) ↔ Clean fs ∧ Clean gs := List.forall_mem_append

theorem not_clean_singleton {line : Nat} {p : Problem} (h : p.kind = .syntactic) :
    ¬Clean [⟨line, p⟩] := fun hclean => hclean _ List.mem_cons_self h

end Fault

namespace Lexeme

variable {x : Lexeme} {xs ys : List Lexeme}

theorem lexical_cons : Lexical (x :: xs) ↔ Fault.Clean x.ownFaults ∧ Lexical xs := by
  simp [Lexical, Fault.Clean, ownFaults]

theorem lexical_append : Lexical (xs ++ ys) ↔ Lexical xs ∧ Lexical ys := List.forall_mem_append

theorem Lexical.suffix (h : Lexical xs) (hys : ys <:+ xs) : Lexical ys :=
  fun y hy => h y (hys.subset hy)

theorem clean_flatMap (h : Lexical xs) : Fault.Clean (xs.flatMap ownFaults) := by
  intro f hf
  obtain ⟨x, hx, hf⟩ := List.mem_flatMap.1 hf
  obtain ⟨p, hp, rfl⟩ := List.mem_map.1 hf
  exact h x hx p hp

/-- What is wrong inside the tokens of a text is lexical. -/
theorem lexical_ofText (text : String) : Lexical (ofText text) := by
  intro x hx p hp h
  cases (kind_of_mem_faults hx p hp).symm.trans h

end Lexeme

/-! ## Values -/

namespace Token

variable {t : Token}

theorem ne_closeBracket_of_isScalar (h : t.isScalar = true) : t ≠ .closeBracket := by
  rintro rfl
  cases h

theorem exists_word_of_isNumber (h : t.isNumber = true) : ∃ w, t = .word w := by
  cases t with
  | word w => exact ⟨w, rfl⟩
  | quoted s | openBracket | closeBracket => cases h

theorem isNumber_of_isTruth (h : t.isTruth = true) : t.isNumber = false := by
  cases t with
  | word w =>
    rcases Bool.or_eq_true_iff.1 h with h | h <;> obtain rfl := eq_of_beq h <;> decide +kernel
  | quoted s | openBracket | closeBracket => cases h

theorem exists_word_of_isTruth (h : t.isTruth = true) : ∃ w, t = .word w := by
  cases t with
  | word w => exact ⟨w, rfl⟩
  | quoted s | openBracket | closeBracket => cases h

end Token

open Grammar Fault

theorem readElements_bracketed (start : Nat) {es ys : List Lexeme} {c : Lexeme}
    (hes : ∀ e ∈ es, e.token.isScalar = true) (hc : c.token = .closeBracket) :
    readElements start (es ++ c :: ys) =
      ⟨es.map fun e => .ofToken e.token, es.flatMap Lexeme.ownFaults, ys⟩ := by
  induction es with
  | nil => simp [readElements, hc]
  | cons e es ih =>
    have he := hes e List.mem_cons_self
    rw [List.cons_append, readElements, if_neg (Token.ne_closeBracket_of_isScalar he), if_pos he,
      ih fun e he => hes e (List.mem_cons_of_mem _ he)]
    rfl

theorem bracketed_of_clean {start : Nat} {xs : List Lexeme} (h : Clean (readElements start xs).faults) :
    ∃ es c, (∀ e ∈ es, e.token.isScalar = true) ∧ c.token = .closeBracket ∧
      xs = es ++ c :: (readElements start xs).rest ∧
      (readElements start xs).result = es.map fun e => .ofToken e.token := by
  fun_induction readElements start xs with
  | case1 => exact absurd h (not_clean_singleton rfl)
  | case2 x xs hclose => exact ⟨[], x, List.forall_mem_nil _, hclose, rfl, rfl⟩
  | case3 x xs _ hscalar ih =>
    obtain ⟨es, c, hes, hc, hxs, hresult⟩ := ih (clean_append.1 h).2
    refine ⟨x :: es, c, List.forall_mem_cons.2 ⟨hscalar, hes⟩, hc, congrArg (x :: ·) hxs, ?_⟩
    exact congrArg (Value.ofToken x.token :: ·) hresult
  | case4 => exact absurd h (not_clean_singleton rfl)

section

variable {ys : List Lexeme} (h : ∀ y ∈ ys.head?, y.token.isNumber = false)
include h

theorem takeWhile_isNumber_of_head : ys.takeWhile (fun y : Lexeme => y.token.isNumber) = [] := by
  cases ys with
  | nil => rfl
  | cons y ys => simp [h y rfl]

theorem dropWhile_isNumber_of_head : ys.dropWhile (fun y : Lexeme => y.token.isNumber) = ys := by
  cases ys with
  | nil => rfl
  | cons y ys => simp [h y rfl]

end

theorem dropWhile_isNumber_head (xs : List Lexeme) :
    ∀ y ∈ (xs.dropWhile fun y => y.token.isNumber).head?, y.token.isNumber = false := by
  intro y hy
  have hhead := List.head?_dropWhile_not (fun y : Lexeme => y.token.isNumber) xs
  rw [Option.mem_def] at hy
  rwa [hy] at hhead

theorem Value.ofList_of_length {collapse : Bool} {vs : List Value} (h : collapse = true → vs.length ≠ 1) :
    ofList collapse vs = .list vs := by
  unfold ofList
  split
  · exact absurd rfl (h rfl)
  · rfl

theorem Grammar.valueAt_bracketed (collapse : Bool) {o c : Lexeme} {es ys : List Lexeme}
    (ho : o.token = .openBracket) (hes : ∀ e ∈ es, e.token.isScalar = true) (hc : c.token = .closeBracket) :
    ValueAt collapse (o :: (es ++ c :: ys)) (.ofList collapse (es.map fun e => .ofToken e.token)) ys := by
  by_cases hsingle : collapse = true ∧ es.length = 1
  · obtain ⟨rfl, hlength⟩ := hsingle
    obtain ⟨e, rfl⟩ := List.length_eq_one_iff.1 hlength
    exact .single rfl ho (hes e List.mem_cons_self) hc
  · have hlist : collapse = true → es.length ≠ 1 := fun h hlength => hsingle ⟨h, hlength⟩
    rw [Value.ofList_of_length (by rwa [List.length_map])]
    exact .listed hlist ho hes hc

theorem Grammar.valueAt_numbers (collapse : Bool) {n : Lexeme} {ns ys : List Lexeme}
    (hn : n.token.isNumber = true) (hns : ∀ m ∈ ns, m.token.isNumber = true)
    (hys : ∀ y ∈ ys.head?, y.token.isNumber = false) :
    ValueAt collapse (n :: (ns ++ ys)) (.ofList true ((n :: ns).map fun m => .ofToken m.token)) ys := by
  cases ns with
  | nil => exact .number hn hys
  | cons n' ns => exact .numbers hn hns hys

theorem valueAt_of_clean {collapse : Bool} {xs : List Lexeme} {r : Reading Value}
    (h : readValue? collapse xs = some r) (hclean : Clean r.faults) :
    ValueAt collapse xs r.result r.rest := by
  cases xs with
  | nil => cases h
  | cons x xs =>
    simp only [readValue?] at h
    split at h
    · rename_i hx
      cases h
      obtain ⟨es, c, hes, hc, hxs, hresult⟩ := bracketed_of_clean (clean_append.1 hclean).2
      have hvalue : ValueAt collapse _ _ (readElements x.line xs).rest :=
        valueAt_bracketed collapse hx hes hc
      rw [← hxs, ← hresult] at hvalue
      exact hvalue
    · rename_i hx
      cases h
      exact .quoted hx
    · split at h
      · rename_i hnumber
        cases h
        have hrun : ∀ m ∈ xs.takeWhile fun y => y.token.isNumber, m.token.isNumber = true :=
          fun m hm => List.mem_takeWhile_imp (p := fun y : Lexeme => y.token.isNumber) hm
        have hvalue := valueAt_numbers collapse hnumber hrun (dropWhile_isNumber_head xs)
        rw [List.takeWhile_append_dropWhile] at hvalue
        exact hvalue
      · split at h
        · rename_i htruth
          cases h
          exact .truth htruth
        · cases h

theorem readValue?_bracketed (collapse : Bool) {o c : Lexeme} {es ys : List Lexeme}
    (ho : o.token = .openBracket) (hes : ∀ e ∈ es, e.token.isScalar = true) (hc : c.token = .closeBracket)
    (hxs : Lexeme.Lexical (o :: (es ++ c :: ys))) :
    ∃ fs, readValue? collapse (o :: (es ++ c :: ys)) =
      some ⟨.ofList collapse (es.map fun e => .ofToken e.token), fs, ys⟩ ∧ Clean fs := by
  refine ⟨es.flatMap Lexeme.ownFaults, ?_, ?_⟩
  · simp only [readValue?, ho, readElements_bracketed o.line hes hc]
    rfl
  · have hes := (Lexeme.lexical_append.1 (Lexeme.lexical_cons.1 hxs).2).1
    exact Lexeme.clean_flatMap hes

theorem readValue?_numbers (collapse : Bool) {n : Lexeme} {ns ys : List Lexeme}
    (hn : n.token.isNumber = true) (hns : ∀ m ∈ ns, m.token.isNumber = true)
    (hys : ∀ y ∈ ys.head?, y.token.isNumber = false) :
    readValue? collapse (n :: (ns ++ ys)) =
      some ⟨.ofList true ((n :: ns).map fun m => .ofToken m.token), [], ys⟩ := by
  obtain ⟨w, hw⟩ := Token.exists_word_of_isNumber hn
  have htake : (ns ++ ys).takeWhile (fun y : Lexeme => y.token.isNumber) = ns := by
    rw [List.takeWhile_append_of_pos hns, takeWhile_isNumber_of_head hys, List.append_nil]
  have hdrop : (ns ++ ys).dropWhile (fun y : Lexeme => y.token.isNumber) = ys := by
    rw [List.dropWhile_append_of_pos hns, dropWhile_isNumber_of_head hys]
  rw [hw] at hn
  simp only [readValue?, hw, hn, htake, hdrop]
  rfl

theorem Grammar.ValueAt.readValue? {collapse : Bool} {xs ys : List Lexeme} {v : Value}
    (h : ValueAt collapse xs v ys) (hxs : Lexeme.Lexical xs) :
    ∃ fs, readValue? collapse xs = some ⟨v, fs, ys⟩ ∧ Clean fs := by
  cases h with
  | @single o e c ys hcollapse ho he hc =>
    subst hcollapse
    exact readValue?_bracketed true ho (List.forall_mem_singleton.2 he) hc hxs
  | @listed o c es ys hlength ho hes hc =>
    have hread := readValue?_bracketed collapse ho hes hc hxs
    rwa [Value.ofList_of_length (by rwa [List.length_map])] at hread
  | number hn hys => exact ⟨[], readValue?_numbers collapse hn (List.forall_mem_nil _) hys, clean_nil⟩
  | numbers hn hns hys => exact ⟨[], readValue?_numbers collapse hn hns hys, clean_nil⟩
  | @quoted x s ys hx =>
    refine ⟨x.ownFaults, ?_, (Lexeme.lexical_cons.1 hxs).1⟩
    simp only [SceneConvert.readValue?, hx]
  | @truth x ys hx =>
    have hnumber := Token.isNumber_of_isTruth hx
    obtain ⟨w, hw⟩ := Token.exists_word_of_isTruth hx
    refine ⟨[], ?_, clean_nil⟩
    rw [hw] at hx hnumber
    simp [SceneConvert.readValue?, hw, hx, hnumber]

/-- Nothing that starts an operation starts a value. -/
theorem readValue?_resumes {collapse : Bool} {ys : List Lexeme} (h : Lexeme.Resumes ys) :
    readValue? collapse ys = none := by
  cases ys with
  | nil => rfl
  | cons y ys =>
    have haction := h y rfl
    cases hy : y.token with
    | word w =>
      rw [hy] at haction
      simp [readValue?, hy, Token.isNumber_of_isAction haction, Token.isTruth_of_isAction haction]
    | quoted s | openBracket | closeBracket => simp [hy, Token.isAction] at haction

/-! ## Parameters -/

namespace Parameters

/-- Adds an entry that is declared already. -/
def put (ps : Parameters) (p : Parameter) : Parameters := ⟨(ps.erase p.name).entries ++ [p]⟩

theorem add_eq_put (ps : Parameters) (key : String) (v : Value) :
    ps.add key v = ps.put (.declare key v) := rfl

end Parameters

namespace Parameter

theorem lastOfEach_sublist (ps : List Parameter) : (lastOfEach ps).Sublist ps := by
  induction ps with
  | nil => exact List.Sublist.refl []
  | cons p ps ih =>
    rw [lastOfEach]
    split
    · exact ih.cons p
    · exact ih.cons_cons p

theorem lastOfEach_concat (ps : List Parameter) (p : Parameter) :
    lastOfEach (ps ++ [p]) = (lastOfEach ps).eraseP (fun q => q.name == p.name) ++ [p] := by
  induction ps with
  | nil => rfl
  | cons q ps ih =>
    rw [List.cons_append, lastOfEach, lastOfEach, ih]
    cases hq : ps.any fun r => r.name == q.name with
    | true => simp only [List.any_append, hq, Bool.true_or, ↓reduceIte]
    | false =>
      simp only [List.any_append, hq, Bool.false_or, List.any_cons, List.any_nil, Bool.or_false,
        Bool.false_eq_true, ↓reduceIte]
      by_cases hp : q.name = p.name
      · have hnone : (lastOfEach ps).eraseP (fun r => r.name == p.name) = lastOfEach ps := by
          refine List.eraseP_of_forall_not fun r hr hname => ?_
          rw [← hp] at hname
          exact List.any_eq_false.1 hq r ((lastOfEach_sublist ps).subset hr) hname
        simp [hp, hnone]
      · simp [hp, Ne.symm hp]

theorem foldl_put (ps : List Parameter) :
    ps.foldl Parameters.put .empty = ⟨lastOfEach ps⟩ := by
  induction ps using List.reverseRecOn with
  | nil => rfl
  | append_singleton ps p ih =>
    rw [List.foldl_append, ih, lastOfEach_concat]
    rfl

end Parameter

theorem parametersAt_of_clean {collapse : Bool} (ps : Parameters) {xs : List Lexeme}
    (h : Clean (readParameters collapse ps xs).faults) :
    ∃ qs, ParametersAt collapse xs qs (readParameters collapse ps xs).rest ∧
      (readParameters collapse ps xs).result = qs.foldl Parameters.put ps := by
  fun_induction readParameters collapse ps xs with
  | case1 ps => exact ⟨[], .nil, rfl⟩
  | case2 ps x xs key hx v hv ih =>
    obtain ⟨hfirst, hrest⟩ := clean_append.1 h
    obtain ⟨qs, hqs, hresult⟩ := ih hrest
    exact ⟨_, .cons hx (valueAt_of_clean hv (clean_append.1 hfirst).2) hqs, hresult⟩
  | case3 ps x xs key hx hv ih =>
    exact absurd (clean_append.1 (clean_append.1 h).1).2 (not_clean_singleton rfl)
  | case4 ps x xs hx => exact ⟨[], .nil, rfl⟩

theorem Grammar.ParametersAt.readParameters {collapse : Bool} {xs zs : List Lexeme}
    {qs : List Parameter} (h : ParametersAt collapse xs qs zs) (hxs : Lexeme.Lexical xs)
    (hzs : Lexeme.Resumes zs) (ps : Parameters) :
    ∃ fs, readParameters collapse ps xs = ⟨qs.foldl Parameters.put ps, fs, zs⟩ ∧ Clean fs := by
  induction h generalizing ps with
  | @nil ys =>
    refine ⟨[], ?_, clean_nil⟩
    cases ys with
    | nil => rw [SceneConvert.readParameters]; rfl
    | cons y ys =>
      refine readParameters_stop ps fun key hy => ?_
      have haction := hzs y rfl
      rw [hy] at haction
      cases haction
  | @cons x key xs ys zs v qs hx hv _ ih =>
    obtain ⟨hown, hxs⟩ := Lexeme.lexical_cons.1 hxs
    obtain ⟨fs, hread, hfs⟩ := hv.readValue? hxs
    obtain ⟨gs, hrest, hgs⟩ := ih (hxs.suffix hv.suffix) hzs (ps.put (.declare key v))
    refine ⟨_, ?_, clean_append.2 ⟨clean_append.2 ⟨hown, hfs⟩, hgs⟩⟩
    rw [readParameters_some ps hx hread, Parameters.add_eq_put, hrest]
    rfl

/-! ## Operations -/

theorem operationAt_of_clean {collapse : Bool} {x : Lexeme} {w : String} {xs : List Lexeme}
    (hx : x.token = .word w) (haction : x.token.isAction = true)
    (h : Clean (readOperands collapse xs).faults) :
    OperationAt collapse (x :: xs)
      ⟨x.line, w, (readOperands collapse xs).result.1, (readOperands collapse xs).result.2⟩
      (readOperands collapse xs).rest := by
  unfold readOperands at h ⊢
  split at h
  · exact .bare hx haction
  · rename_i v hv
    obtain ⟨hoperand, hparameters⟩ := clean_append.1 h
    obtain ⟨qs, hqs, hresult⟩ := parametersAt_of_clean .empty hparameters
    rw [Parameter.foldl_put] at hresult
    simp only [Reading.after, hresult]
    exact .full hx haction (valueAt_of_clean hv hoperand) hqs

theorem Grammar.OperationAt.ofLexemes {collapse : Bool} {xs zs : List Lexeme} {st : Statement}
    (h : OperationAt collapse xs st zs) (hxs : Lexeme.Lexical xs) (hzs : Lexeme.Resumes zs) :
    ∃ fs, Event.ofLexemes collapse xs =
      fs.map .fault ++ .statement st :: Event.ofLexemes collapse zs ∧ Clean fs := by
  cases h with
  | @bare x w ys hx haction =>
    refine ⟨[], ?_, clean_nil⟩
    rw [hx] at haction
    simp only [Event.ofLexemes, hx, haction, ↓reduceIte, readOperands, readValue?_resumes hzs]
  | @full x w xs ys zs v qs hx haction hv hqs =>
    have hxs := (Lexeme.lexical_cons.1 hxs).2
    obtain ⟨fs, hread, hfs⟩ := hv.readValue? hxs
    obtain ⟨gs, hrest, hgs⟩ := hqs.readParameters (hxs.suffix hv.suffix) hzs .empty
    refine ⟨fs ++ gs, ?_, clean_append.2 ⟨hfs, hgs⟩⟩
    rw [hx] at haction
    simp only [Event.ofLexemes, hx, haction, ↓reduceIte, readOperands, hread, hrest, Reading.after,
      Parameter.foldl_put]

/-! ## Scenes -/

theorem Grammar.OperationAt.resumes {collapse : Bool} {xs ys : List Lexeme} {st : Statement}
    (h : OperationAt collapse xs st ys) : Lexeme.Resumes xs := by
  cases h with
  | bare _ haction | full _ haction =>
    intro y hy
    cases hy
    exact haction

theorem Grammar.Scene.resumes {collapse : Bool} {xs : List Lexeme} {sts : List Statement}
    (h : Scene collapse xs sts) : Lexeme.Resumes xs := by
  cases h with
  | nil => exact nofun
  | cons hop _ => exact hop.resumes

/-- None of the elements of the value is a list. -/
def Value.IsFlat (v : Value) : Prop := ∀ e ∈ v.elements, ∀ vs, e ≠ .list vs

/-- None of the values of the statement has a list in it. -/
def Statement.IsFlat (st : Statement) : Prop :=
  (∀ v ∈ st.operand, v.IsFlat) ∧ ∀ p ∈ st.parameters.entries, p.value.IsFlat

theorem Value.ofToken_ne_list (t : Token) (vs : List Value) : ofToken t ≠ .list vs := by
  cases t with
  | word s =>
    change ofWord s ≠ _
    unfold ofWord
    split
    · nofun
    · split <;> nofun
  | quoted s | openBracket | closeBracket => nofun

theorem Grammar.ValueAt.isFlat {collapse : Bool} {xs ys : List Lexeme} {v : Value}
    (h : ValueAt collapse xs v ys) : v.IsFlat := by
  have token (t : Token) : (Value.ofToken t).IsFlat := by
    intro e he
    rw [Value.elements_ofToken, List.mem_singleton] at he
    exact he ▸ Value.ofToken_ne_list t
  have list (es : List Lexeme) : (Value.list (es.map fun e => .ofToken e.token)).IsFlat := by
    intro v hv
    obtain ⟨e, -, rfl⟩ := List.mem_map.1 hv
    exact Value.ofToken_ne_list e.token
  cases h with
  | single | number | truth => exact token _
  | listed | numbers => exact list _
  | quoted =>
    intro e he
    obtain rfl := List.mem_singleton.1 he
    nofun

theorem Grammar.ParametersAt.isFlat {collapse : Bool} {xs ys : List Lexeme} {ps : List Parameter}
    (h : ParametersAt collapse xs ps ys) : ∀ p ∈ ps, p.value.IsFlat := by
  induction h with
  | nil => exact nofun
  | cons _ hv _ ih =>
    refine List.forall_mem_cons.2 ⟨?_, ih⟩
    rw [Parameter.declare_value]
    exact hv.isFlat

theorem Grammar.OperationAt.isFlat {collapse : Bool} {xs ys : List Lexeme} {st : Statement}
    (h : OperationAt collapse xs st ys) : st.IsFlat := by
  cases h with
  | bare => exact ⟨nofun, nofun⟩
  | full _ _ hv hps =>
    refine ⟨fun v he => ?_, fun p hp => hps.isFlat p ((Parameter.lastOfEach_sublist _).subset hp)⟩
    cases he
    exact hv.isFlat

theorem Grammar.Scene.isFlat {collapse : Bool} {xs : List Lexeme} {sts : List Statement}
    (h : Scene collapse xs sts) : ∀ st ∈ sts, st.IsFlat := by
  induction h with
  | nil => exact nofun
  | cons hop _ ih => exact List.forall_mem_cons.2 ⟨hop.isFlat, ih⟩

namespace Event

theorem filterMap_faults (fs : List Fault) :
    (fs.map fault).filterMap fault? = fs ∧ (fs.map fault).filterMap statement? = [] := by
  constructor
  · simp [List.filterMap_map, Function.comp_def, fault?]
  · simp [List.filterMap_map, Function.comp_def, statement?]

/-- A text without syntax errors is read as it derives from the grammar. -/
theorem scene_of_clean {collapse : Bool} {xs : List Lexeme}
    (h : Clean ((ofLexemes collapse xs).filterMap fault?)) :
    Grammar.Scene collapse xs ((ofLexemes collapse xs).filterMap statement?) := by
  fun_induction ofLexemes collapse xs with
  | case1 => exact .nil
  | case2 x xs s hx haction r ih =>
    rw [List.filterMap_append, (filterMap_faults r.faults).1] at h
    obtain ⟨hfirst, hrest⟩ := clean_append.1 h
    rw [List.filterMap_append, (filterMap_faults r.faults).2]
    exact .cons (operationAt_of_clean hx haction hfirst) (ih hrest)
  | case3 x xs s hx haction ih => exact absurd rfl (h _ List.mem_cons_self)
  | case4 x xs hx ih =>
    rw [List.filterMap_append] at h
    exact absurd rfl ((clean_append.1 h).2 _ List.mem_cons_self)

end Event

theorem Grammar.Scene.ofLexemes {collapse : Bool} {xs : List Lexeme} {sts : List Statement}
    (h : Scene collapse xs sts) (hxs : Lexeme.Lexical xs) :
    Clean ((Event.ofLexemes collapse xs).filterMap Event.fault?) ∧
      (Event.ofLexemes collapse xs).filterMap Event.statement? = sts := by
  induction h with
  | nil => simp [Event.ofLexemes]
  | cons hop hrest ih =>
    obtain ⟨fs, hread, hfs⟩ := hop.ofLexemes hxs hrest.resumes
    obtain ⟨hclean, hsts⟩ := ih (hxs.suffix hop.suffix)
    rw [hread, List.filterMap_append, List.filterMap_append, (Event.filterMap_faults fs).1,
      (Event.filterMap_faults fs).2]
    exact ⟨clean_append.2 ⟨hfs, hclean⟩, congrArg (_ :: ·) hsts⟩

/-- The reader finds nothing wrong with the syntax of exactly those tokens that derive from the grammar.
It reads them as they derive, and no list has a list in it. -/
theorem Event.clean_iff_scene {collapse : Bool} {xs : List Lexeme} (hxs : Lexeme.Lexical xs) :
    (Clean ((ofLexemes collapse xs).filterMap fault?) ↔ ∃ sts, Grammar.Scene collapse xs sts) ∧
      ∀ sts, Grammar.Scene collapse xs sts →
        (ofLexemes collapse xs).filterMap statement? = sts ∧ ∀ st ∈ sts, st.IsFlat := by
  refine ⟨⟨fun h => ⟨_, scene_of_clean h⟩, ?_⟩, fun sts h => ⟨(h.ofLexemes hxs).2, h.isFlat⟩⟩
  rintro ⟨sts, h⟩
  exact (h.ofLexemes hxs).1

/-- A run of numbers, and a parameter that is given twice, at last as a list. -/
theorem Event.scene_given_twice :
    let xs : List Lexeme := [⟨1, .word "Translate", []⟩, ⟨1, .word "0", []⟩, ⟨2, .word "0", []⟩,
      ⟨3, .quoted "bool shut", []⟩, ⟨3, .openBracket, []⟩, ⟨3, .word "true", []⟩, ⟨3, .closeBracket, []⟩,
      ⟨4, .quoted "shut", []⟩, ⟨4, .openBracket, []⟩, ⟨4, .word "false", []⟩, ⟨4, .quoted "a", []⟩,
      ⟨4, .closeBracket, []⟩]
    let st : Statement := ⟨1, "Translate", some (.list [.integer 0, .integer 0]),
      ⟨[⟨"shut", none, .list [.text "false", .text "a"], false⟩]⟩⟩
    Lexeme.Lexical xs ∧ Clean ((ofLexemes true xs).filterMap fault?) ∧ Grammar.Scene true xs [st] := by
  intro xs st
  have hlexical : Lexeme.Lexical xs := by simp [Lexeme.Lexical, xs]
  have hclean : (ofLexemes true xs).filterMap fault? = [] := by cbv
  have hread : (ofLexemes true xs).filterMap statement? = [st] := by cbv
  obtain ⟨sts, hsts⟩ := (clean_iff_scene hlexical).1.1 (hclean ▸ clean_nil)
  obtain rfl := hread.symm.trans ((clean_iff_scene hlexical).2 sts hsts).1
  exact ⟨hlexical, hclean ▸ clean_nil, hsts⟩

end SceneConvert
