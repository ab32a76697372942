import SceneConvert.Statement.Basic
import SceneConvert.Token.Lexer

/-!
# SceneConvert.Statement.Reader

From tokens to statements. What does not fit is reported and skipped, and reading goes on at the next
token that can start a statement.

* `Value.ofToken`: the value of a token in a list.
* `readValue?`: one value at the start of the tokens.
* `readParameters`: the parameters behind an operand.
* `Event.ofText`: the statements and problems of a text, in the order in which they are met.
-/

namespace SceneConvert

structure Fault where
  line : Nat
  problem : Problem

namespace Lexeme

/-- The faults inside a token, all reported on the line it starts on. -/
def ownFaults (x : Lexeme) : List Fault := x.faults.map fun p => ⟨x.line, p⟩

end Lexeme

/-- The range of the integers that keep their value; larger ones become floats. -/
def inIntegerRange (i : Int) : Bool := -Int.pow 2 63 ≤ i && i < Int.pow 2 63

/-- The value of a bare word: an integer in range, a float, or else a string. -/
def Value.ofWord (s : String) : Value :=
  match Numeral.ofChars? s.toList with
  | none => .text s
  | some n =>
    match n.integer?.filter inIntegerRange, n.float? with
    | some i, _ => .integer i
    | none, some v => .float v
    | none, none => .text s

def Value.ofToken : Token → Value
  | .word s => .ofWord s
  | .quoted s => .text s
  | t => .text t.display

/-- A list, or its only element when `collapse` is set. -/
def Value.ofList (collapse : Bool) (vs : List Value) : Value :=
  match collapse, vs with
  | true, [v] => v
  | _, _ => .list vs

/-- Something read off the start of the tokens, the faults met on the way, and the tokens behind. -/
structure Reading (β : Type) where
  result : β
  faults : List Fault
  rest : List Lexeme

namespace Reading

/-- The reading of a whole from that of its last part, given the faults met before that part. -/
def after {β γ : Type} (r : Reading β) (make : β → γ) (earlier : List Fault) : Reading γ :=
  ⟨make r.result, earlier ++ r.faults, r.rest⟩

@[simp] theorem rest_after {β γ : Type} (r : Reading β) (make : β → γ) (earlier : List Fault) :
    (r.after make earlier).rest = r.rest := rfl

end Reading

/-- The elements of a list behind its opening bracket, which stands on line `start`. The list ends at
the closing bracket, or before the first token that cannot be an element. -/
def readElements (start : Nat) : List Lexeme → Reading (List Value)
  | [] => ⟨[], [⟨start, .bracketUnclosed⟩], []⟩
  | x :: xs =>
    if x.token = .closeBracket then ⟨[], [], xs⟩
    else if x.token.isScalar then
      (readElements start xs).after (.ofToken x.token :: ·) x.ownFaults
    else ⟨[], [⟨x.line, .bracketExpected x.token.display⟩], x :: xs⟩

/-- The value at the start of the tokens: a list in brackets, a run of numbers, a string, or a truth
value. A run of one number is that number. -/
def readValue? (collapse : Bool) : List Lexeme → Option (Reading Value)
  | [] => none
  | x :: xs =>
    match x.token with
    | .openBracket => some ((readElements x.line xs).after (.ofList collapse) [])
    | .quoted s => some ⟨.text s, x.ownFaults, xs⟩
    | t =>
      if t.isNumber then
        let run := (x :: xs.takeWhile (·.token.isNumber)).map fun y => Value.ofToken y.token
        some ⟨.ofList true run, [], xs.dropWhile (·.token.isNumber)⟩
      else if t.isTruth then some ⟨.ofToken t, [], xs⟩
      else none

theorem length_rest_readElements (start : Nat) (xs : List Lexeme) :
    (readElements start xs).rest.length ≤ xs.length := by
  fun_induction readElements start xs <;> simp_all
  omega

theorem length_rest_readValue? {collapse : Bool} {xs : List Lexeme} {r : Reading Value}
    (h : readValue? collapse xs = some r) : r.rest.length < xs.length := by
  cases xs with
  | nil => simp [readValue?] at h
  | cons x xs =>
    have run := (List.dropWhile_sublist (l := xs) (·.token.isNumber)).length_le
    have elements := length_rest_readElements x.line xs
    simp only [readValue?] at h
    split at h
    · cases h; simp only [Reading.rest_after, List.length_cons]; omega
    · cases h; simp
    · split at h
      · cases h; simp only [List.length_cons]; omega
      · split at h
        · cases h; simp
        · cases h

/-- The parameters at the start of the tokens: each string is a key, behind which its value stands. A
key without a value is reported and dropped. -/
def readParameters (collapse : Bool) (ps : Parameters) : List Lexeme → Reading Parameters
  | [] => ⟨ps, [], []⟩
  | x :: xs =>
    match x.token with
    | .quoted key =>
      match h : readValue? collapse xs with
      | some v =>
        (readParameters collapse (ps.add key v.result) v.rest).after id (x.ownFaults ++ v.faults)
      | none =>
        (readParameters collapse ps xs).after id (x.ownFaults ++ [⟨x.line, .valueMissing key⟩])
    | _ => ⟨ps, [], x :: xs⟩
  termination_by xs => xs.length
  decreasing_by
  all_goals simp only [List.length_cons]
  · have := length_rest_readValue? h; omega
  · omega

/-- What a text holds, in the order in which it is met. -/
inductive Event where
  | fault (f : Fault)
  | statement (st : Statement)

/-- The operand and the parameters behind a directive's word. Without an operand there are no
parameters. -/
def readOperands (collapse : Bool) (xs : List Lexeme) : Reading (Option Value × Parameters) :=
  match readValue? true xs with
  | none => ⟨(none, .empty), [], xs⟩
  | some v =>
    (readParameters collapse .empty v.rest).after (some v.result, ·) v.faults

theorem length_rest_readParameters (collapse : Bool) (ps : Parameters) (xs : List Lexeme) :
    (readParameters collapse ps xs).rest.length ≤ xs.length := by
  fun_induction readParameters collapse ps xs with
  | case1 => simp
  | case2 ps x xs key hx v h ih =>
    have := length_rest_readValue? h
    simp only [Reading.rest_after, List.length_cons]; omega
  | case3 ps x xs key hx h ih => simp only [Reading.rest_after, List.length_cons]; omega
  | case4 => simp

theorem length_rest_readOperands (collapse : Bool) (xs : List Lexeme) :
    (readOperands collapse xs).rest.length ≤ xs.length := by
  unfold readOperands
  split
  · simp
  · rename_i v h
    have := length_rest_readValue? h
    have := length_rest_readParameters collapse .empty v.rest
    simp only [Reading.rest_after]; omega

namespace Event

/-- The statements and problems of a sequence of tokens. A statement comes behind all problems met in
it. -/
def ofLexemes (collapse : Bool) : List Lexeme → List Event
  | [] => []
  | x :: xs =>
    match x.token with
    | .word s =>
      if x.token.isAction then
        let r := readOperands collapse xs
        r.faults.map .fault ++ .statement ⟨x.line, s, r.result.1, r.result.2⟩ ::
          ofLexemes collapse r.rest
      else .fault ⟨x.line, .strayToken x.token.display⟩ :: ofLexemes collapse xs
    | _ =>
      x.ownFaults.map .fault ++
        .fault ⟨x.line, .strayToken x.token.display⟩ :: ofLexemes collapse xs
  termination_by xs => xs.length
  decreasing_by
  all_goals simp only [List.length_cons]
  · have := length_rest_readOperands collapse xs; omega
  all_goals omega

def ofText (collapse : Bool) (text : String) : List Event := ofLexemes collapse (Lexeme.ofText text)

def fault? : Event → Option Fault
  | fault f => some f
  | statement _ => none

def statement? : Event → Option Statement
  | fault _ => none
  | statement st => some st

end Event

end SceneConvert
