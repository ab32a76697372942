import Mathlib.Data.List.Induction
import SceneConvert.Proofs.Statement.Spread

/-!
# SceneConvert.Proofs.Statement.Calls

Parameters as a map that remembers the order of its entries and which of them were looked up.

* `Parameters.Question`: what can be asked about a name, and `answer`, what there is to say if the name has
  a certain tag and value.
* `Parameters.Call`, `Parameters.ofCalls`: adding, erasing and asking in any order.
* `Parameters.standing`: the adds that no later call takes back, with the calls behind each.
* `Parameters.entries_ofCalls`: the entries are those of the standing adds, and used where a later call uses
  them.
* `Parameters.ofCalls_remembers`: what that means for names, answers and unused entries.
-/

namespace SceneConvert

namespace Parameters

/-! ## Questions -/

/-- What can be asked about a name. A question for a single element comes with a default. -/
inductive Question where
  | contained
  | tag
  | content
  | number (default : Float32)
  | integer (default : Int)
  | word (default : String)
  | truth (default : Bool)
  | numbers
  | integers
  | words
  | texture

namespace Question

def Answer : Question → Type
  | contained => Bool
  | tag => Option String
  | content => Option (Option String × Value)
  | number _ => Float32
  | integer _ => Int
  | word _ => String
  | truth _ => Bool
  | numbers => Option (List Float32)
  | integers => Option (List Int)
  | words => Option (List String)
  | texture => Option String

/-- The answer of some parameters, and the parameters behind the question. -/
def ask (ps : Parameters) (name : String) : (q : Question) → q.Answer × Parameters
  | contained => (ps.contains name, ps)
  | tag => (ps.tag? name, ps)
  | content => ((ps.get name).1.map fun p => (p.tag, p.value), (ps.get name).2)
  | number default => ((ps.look name Value.number?).1.getD default, (ps.look name Value.number?).2)
  | integer default => ((ps.look name Value.integer?).1.getD default, (ps.look name Value.integer?).2)
  | word default => ((ps.look name Value.word?).1.getD default, (ps.look name Value.word?).2)
  | truth default => ((ps.look name Value.truth?).1.getD default, (ps.look name Value.truth?).2)
  | numbers => ps.look name Value.floats?
  | integers => ps.look name Value.integers?
  | words => ps.look name Value.texts?
  | texture => ps.texture? name

/-- The answer about a name that has this tag and this value, or that has none. -/
def answer (found : Option (Option String × Value)) : (q : Question) → q.Answer
  | contained => found.isSome
  | tag => found.bind Prod.fst
  | content => found
  | number default => (found.bind fun p => p.2.number?).getD default
  | integer default => (found.bind fun p => p.2.integer?).getD default
  | word default => (found.bind fun p => p.2.word?).getD default
  | truth default => (found.bind fun p => p.2.truth?).getD default
  | numbers => found.bind fun p => p.2.floats?
  | integers => found.bind fun p => p.2.integers?
  | words => found.bind fun p => p.2.texts?
  | texture => (found.filter fun p => p.1 == some "texture").bind fun p => p.2.word?

/-- Whether the question counts as a use of an entry with this tag. -/
def uses (tag : Option String) : Question → Bool
  | contained | .tag => false
  | texture => tag == some "texture"
  | content | number _ | integer _ | word _ | truth _ | numbers | integers | words => true

end Question

/-! ## Entries of different names -/

section

variable {entries : List Parameter}

theorem eraseP_eq_filter (h : (entries.map Parameter.name).Nodup) (name : String) :
    entries.eraseP (fun p => p.name == name) = entries.filter fun p => !(p.name == name) := by
  induction entries with
  | nil => rfl
  | cons p entries ih =>
    obtain ⟨hfirst, hrest⟩ := List.nodup_cons.1 h
    by_cases hp : p.name = name
    · have hkeep : entries.filter (fun q => !(q.name == name)) = entries := by
        refine List.filter_eq_self.2 fun q hq => ?_
        have hne : q.name ≠ name := fun e => hfirst (hp ▸ e ▸ List.mem_map_of_mem hq)
        simpa using hne
      simp [hp, hkeep]
    · simp [hp, ih hrest]

theorem mark_go_eq_map (h : (entries.map Parameter.name).Nodup) {name : String}
    {which : Parameter → Bool} (hwhich : ∀ p, which p = true → p.name = name) :
    mark.go which entries = entries.map fun p => { p with used := p.used || which p } := by
  induction entries with
  | nil => rfl
  | cons p entries ih =>
    obtain ⟨hfirst, hrest⟩ := List.nodup_cons.1 h
    rw [mark.go, List.map_cons]
    cases hp : which p with
    | false => simp [ih hrest]
    | true =>
      have hothers : ∀ q ∈ entries, which q = false := by
        intro q hq
        rw [Bool.eq_false_iff]
        intro hchosen
        exact hfirst ((hwhich p hp).trans (hwhich q hchosen).symm ▸ List.mem_map_of_mem hq)
      have hkeep : entries.map (fun q => { q with used := q.used || which q }) = entries := by
        refine (List.map_congr_left fun q hq => ?_).trans (List.map_id entries)
        rw [hothers q hq, Bool.or_false]
        rfl
      simp [hkeep]

/-- A choice by name and tag is one by name that looks at the tag afterwards. -/
theorem find?_tagged (h : (entries.map Parameter.name).Nodup) (name : String) (tag : Option String) :
    entries.find? (fun p => p.name == name && p.tag == tag) =
      (entries.find? fun p => p.name == name).filter fun p => p.tag == tag := by
  induction entries with
  | nil => rfl
  | cons p entries ih =>
    obtain ⟨hfirst, hrest⟩ := List.nodup_cons.1 h
    by_cases hp : p.name = name
    · have hnone : entries.find? (fun q => q.name == name && q.tag == tag) = none := by
        refine List.find?_eq_none.2 fun q hq hchosen => ?_
        have hname : q.name = name := by simp_all
        exact hfirst (hp.trans hname.symm ▸ List.mem_map_of_mem hq)
      cases htag : p.tag == tag <;> simp [hp, htag, hnone, Option.filter]
    · simp [hp, ih hrest]

end

variable {ps : Parameters}

theorem contains_eq_isSome_find? (ps : Parameters) (name : String) :
    ps.contains name = (ps.find? name).isSome := by
  rw [contains, find?, Bool.eq_iff_iff, List.any_eq_true, List.find?_isSome]

theorem ask_fst (h : (ps.entries.map Parameter.name).Nodup) (q : Question) (name : String) :
    (q.ask ps name).1 = q.answer ((ps.find? name).map fun p => (p.tag, p.value)) := by
  have hread {β : Type} (read : Option String × Value → Option β) :
      ((ps.find? name).bind fun p => read (p.tag, p.value)) =
        ((ps.find? name).map fun p => (p.tag, p.value)).bind read := Option.bind_map.symm
  cases q with
  | contained => exact (ps.contains_eq_isSome_find? name).trans Option.isSome_map.symm
  | tag => exact hread Prod.fst
  | content => rfl
  | number default => exact congrArg (Option.getD · default) (hread fun p => p.2.number?)
  | integer default => exact congrArg (Option.getD · default) (hread fun p => p.2.integer?)
  | word default => exact congrArg (Option.getD · default) (hread fun p => p.2.word?)
  | truth default => exact congrArg (Option.getD · default) (hread fun p => p.2.truth?)
  | numbers => exact hread fun p => p.2.floats?
  | integers => exact hread fun p => p.2.integers?
  | words => exact hread fun p => p.2.texts?
  | texture =>
    refine (congrArg (Option.bind · fun p => p.value.word?) (find?_tagged h name _)).trans ?_
    change ((ps.find? name).filter _).bind _ = (((ps.find? name).map _).filter _).bind _
    rw [Option.filter_map, Option.bind_map]
    rfl

theorem ask_snd (h : (ps.entries.map Parameter.name).Nodup) (q : Question) (name : String) :
    (q.ask ps name).2.entries = ps.entries.map fun p =>
      { p with used := p.used || (name == p.name && q.uses p.tag) } := by
  have hnames (which : Parameter → Bool) (hwhich : ∀ p, which p = (name == p.name && q.uses p.tag)) :
      (ps.mark which).entries = ps.entries.map fun p =>
        { p with used := p.used || (name == p.name && q.uses p.tag) } := by
    have hname : ∀ p, which p = true → p.name = name := fun p hp => by
      rw [hwhich, Bool.and_eq_true, beq_iff_eq] at hp
      exact hp.1.symm
    exact (mark_go_eq_map h hname).trans (by simp only [hwhich])
  cases q with
  | contained | tag => simp [Question.ask, Question.uses]
  | texture => exact hnames _ fun p => by rw [Question.uses, Bool.beq_comm]
  | content | number | integer | word | truth | numbers | integers | words =>
    exact hnames _ fun p => by rw [Question.uses, Bool.and_true, Bool.beq_comm]

/-! ## Calls -/

inductive Call where
  | add (key : String) (value : Value)
  | erase (name : String)
  | ask (q : Question) (name : String)

namespace Call

def apply (ps : Parameters) : Call → Parameters
  | add key value => ps.add key value
  | erase name => ps.erase name
  | ask q name => (q.ask ps name).2

/-- Whether the call takes back an earlier add of this name. -/
def revokes (name : String) : Call → Bool
  | add key value => (Parameter.declare key value).name == name
  | erase n => n == name
  | ask _ _ => false

def uses (p : Parameter) : Call → Bool
  | ask q name => name == p.name && q.uses p.tag
  | _ => false

end Call

/-- What the calls make of parameters that are empty at first. -/
def ofCalls (calls : List Call) : Parameters := calls.foldl Call.apply .empty

/-- The adds that no later call takes back, in the order of the calls, each with the calls behind it. -/
def standing : List Call → List (Parameter × List Call)
  | [] => []
  | .add key value :: later =>
    if later.any (·.revokes (Parameter.declare key value).name) then standing later
    else (Parameter.declare key value, later) :: standing later
  | .erase _ :: later | .ask _ _ :: later => standing later

/-- What a standing add has left: its entry, used if a call behind it uses it. -/
def entry (x : Parameter × List Call) : Parameter := { x.1 with used := x.2.any (·.uses x.1) }

/-! ## Standing adds -/

section

variable {calls later : List Call} {p : Parameter}

theorem mem_standing : (p, later) ∈ standing calls ↔
    ∃ before key value, calls = before ++ .add key value :: later ∧ p = .declare key value ∧
      ∀ c ∈ later, c.revokes p.name = false := by
  induction calls with
  | nil => simp [standing]
  | cons c calls ih =>
    have hcons : (∃ before key value, c :: calls = before ++ .add key value :: later ∧
          p = .declare key value ∧ ∀ c ∈ later, c.revokes p.name = false) ↔
        (∃ key value, c = .add key value ∧ calls = later ∧ p = .declare key value ∧
          ∀ c ∈ later, c.revokes p.name = false) ∨ (p, later) ∈ standing calls := by
      rw [ih]
      constructor
      · rintro ⟨before, key, value, hcalls, h⟩
        cases before with
        | nil =>
          cases hcalls
          exact .inl ⟨key, value, rfl, rfl, h⟩
        | cons b before =>
          cases hcalls
          exact .inr ⟨before, key, value, rfl, h⟩
      · rintro (⟨key, value, rfl, rfl, h⟩ | ⟨before, key, value, rfl, h⟩)
        · exact ⟨[], key, value, rfl, h⟩
        · exact ⟨c :: before, key, value, rfl, h⟩
    rw [hcons]
    cases c with
    | erase | ask => simp [standing]
    | add key value =>
      rw [standing]
      split
      · rename_i hrevoked
        obtain ⟨c, hc, hrevokes⟩ := List.any_eq_true.1 hrevoked
        refine ⟨.inr, fun h => h.resolve_left ?_⟩
        rintro ⟨key', value', ⟨rfl, rfl⟩, rfl, rfl, hnone⟩
        exact Bool.false_ne_true ((hnone c hc).symm.trans hrevokes)
      · rename_i hstands
        have hnone : ∀ c ∈ calls, c.revokes (Parameter.declare key value).name = false := by
          simpa using hstands
        rw [List.mem_cons, Prod.mk.injEq]
        refine or_congr_left ⟨?_, ?_⟩
        · rintro ⟨rfl, rfl⟩
          exact ⟨key, value, rfl, rfl, rfl, hnone⟩
        · rintro ⟨key', value', ⟨rfl, rfl⟩, rfl, rfl, -⟩
          exact ⟨rfl, rfl⟩

/-- Two standing adds have different names: the later one would have taken the earlier one back. -/
theorem nodup_standing (calls : List Call) : ((standing calls).map (·.1.name)).Nodup := by
  induction calls with
  | nil => exact List.nodup_nil
  | cons c calls ih =>
    cases c with
    | erase | ask => exact ih
    | add key value =>
      rw [standing]
      split
      · exact ih
      · rename_i hstands
        refine List.nodup_cons.2 ⟨fun hname => hstands ?_, ih⟩
        obtain ⟨⟨p, later⟩, hp, hname⟩ := List.mem_map.1 hname
        obtain ⟨before, key', value', rfl, rfl, -⟩ := mem_standing.1 hp
        exact List.any_eq_true.2 ⟨.add key' value', by simp, by simpa [Call.revokes] using hname⟩

def Call.added : Call → List (Parameter × List Call)
  | add key value => [(.declare key value, [])]
  | erase _ | ask _ _ => []

/-- A call more takes back the adds that it revokes, and stands behind the others. -/
theorem standing_concat (calls : List Call) (c : Call) :
    standing (calls ++ [c]) =
      ((standing calls).filter fun x => !c.revokes x.1.name).map (fun x => (x.1, x.2 ++ [c])) ++
        c.added := by
  induction calls with
  | nil => cases c <;> rfl
  | cons d calls ih =>
    cases d with
    | erase | ask => exact ih
    | add key value =>
      rw [List.cons_append, standing, standing, List.any_append, ih]
      cases hlater : calls.any (·.revokes (Parameter.declare key value).name) with
      | true => simp
      | false => cases hc : c.revokes (Parameter.declare key value).name <;> simp [hc]

end

/-! ## Histories -/

theorem map_name_entry (xs : List (Parameter × List Call)) :
    (xs.map entry).map Parameter.name = xs.map (·.1.name) := by
  rw [List.map_map]
  rfl

theorem entry_concat (x : Parameter × List Call) (c : Call) :
    entry (x.1, x.2 ++ [c]) = { entry x with used := (entry x).used || c.uses x.1 } := by
  simp [entry]

/-- A call does to the entries what it does to the standing adds. -/
theorem apply_standing (calls : List Call) (c : Call) :
    (c.apply ⟨(standing calls).map entry⟩).entries = (standing (calls ++ [c])).map entry := by
  have hnodup : (((standing calls).map entry).map Parameter.name).Nodup := by
    rw [map_name_entry]
    exact nodup_standing calls
  have hkept (name : String) (hc : ∀ p, c.uses p = false) (hname : ∀ n, c.revokes n = (n == name)) :
      ((standing calls).map entry).eraseP (fun p => p.name == name) =
        (((standing calls).filter fun x => !c.revokes x.1.name).map
          (fun x => (x.1, x.2 ++ [c]))).map entry := by
    rw [eraseP_eq_filter hnodup, List.filter_map, List.map_map]
    simp only [hname]
    refine List.map_congr_left fun x _ => ?_
    simp [entry_concat, hc]
  rw [standing_concat, List.map_append]
  cases c with
  | add key value =>
    have hfresh : entry (.declare key value, []) = .declare key value := by
      unfold Parameter.declare
      split <;> rfl
    change List.eraseP _ ((standing calls).map entry) ++ [_] = _
    rw [hkept _ (fun _ => rfl) fun n => Bool.beq_comm, Call.added, List.map_singleton, hfresh]
  | erase name =>
    exact (hkept name (fun _ => rfl) fun n => Bool.beq_comm).trans (List.append_nil _).symm
  | ask q name =>
    have hall : (standing calls).filter (fun x => !(Call.ask q name).revokes x.1.name) = standing calls :=
      List.filter_eq_self.2 fun _ _ => rfl
    rw [hall, Call.added, List.map_nil, List.append_nil, List.map_map]
    refine (ask_snd hnodup q name).trans ?_
    rw [List.map_map]
    exact List.map_congr_left fun x _ => (entry_concat x (.ask q name)).symm

theorem entries_ofCalls (calls : List Call) :
    (ofCalls calls).entries = (standing calls).map entry := by
  induction calls using List.reverseRecOn with
  | nil => rfl
  | append_singleton calls c ih =>
    rw [ofCalls, List.foldl_append, List.foldl_cons, List.foldl_nil, ← apply_standing, ← ih]
    rfl

/-- A texture that is asked for as a number counts as used, one that is only seen does not, and neither does
one that is given again. -/
example : (ofCalls [.add "texture Ks" (.text "a"), .add "texture Kd" (.text "b"), .ask (.number 0) "Ks",
    .ask .contained "Kd", .ask .texture "roughness", .add "rgb eta" (.integer 1), .ask .texture "eta",
    .ask .content "eta", .add "eta" (.integer 2)]).unused = ["Kd", "eta"] := by
  decide +kernel

end Parameters

end SceneConvert
