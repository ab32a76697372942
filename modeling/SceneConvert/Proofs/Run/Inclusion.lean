import SceneConvert.Scene.Inclusion

/-!
# SceneConvert.Proofs.Run.Inclusion

What an include directive can come to.

* `Inclusion.Found`: the file that a directive names, which is not being converted.
* `Inclusion.Outcome`: every way for a directive to end. `Inclusion.outcome`: there are no others.
* `Inclusion.found_of_enter`, `found_of_repeated`: what is known of the file where it is entered, and where
  it was before.
-/

namespace SceneConvert

namespace Inclusion

variable {α : Type} (ctx : Context) (stack : List Path) (s : State α) (source : Path) (st : Statement)

/-- The directive names the file at `path`. It is none of those that are being converted. -/
structure Found (path key : Path) : Prop where
  named : ∃ name, st.text? = some name ∧ ctx.files.include? source name ctx.includeRoot = some path
  absolute : key = (ctx.filesFor s.journal path).absolute path
  fresh : key ∉ stack

/-- What the directive comes to. Earlier inclusions are looked up only where files are not to be converted
again. -/
inductive Outcome : Except Problem Inclusion → Prop
  | nameless : Outcome (.error (.textExpected st.word))
  | missing (name : String) : Outcome (.error (.includeMissing name))
  | recursive (path : Path) : Outcome (.error (.includeRecursive path))
  | unreadable (path : Path) (e : FileError) : Outcome (.error (.includeUnreadable path e))
  | repeated {path key : Path} {output : Option Path} : Found ctx stack s source st path key →
    ctx.options.skipRepeatedIncludes = true → s.included.get? key = some output →
    Outcome (.ok (.repeated path output))
  | enter {path key : Path} {text : String} : Found ctx stack s source st path key →
    (ctx.options.skipRepeatedIncludes = true → s.included.get? key = none) →
    (ctx.filesFor s.journal path).readText path = .ok text → Outcome (.ok (.enter ⟨path, key, text⟩))

theorem outcome : Outcome ctx stack s source st (ofStatement ctx stack s source st) := by
  unfold ofStatement
  split
  · exact .nameless
  · rename_i name hname
    split
    · exact .missing name
    · rename_i path hpath
      dsimp only
      split
      · exact .recursive path
      · rename_i hfresh
        have hfound : Found ctx stack s source st path _ := ⟨⟨name, hname, hpath⟩, rfl, hfresh⟩
        split
        · rename_i output _ hearlier
          split at hearlier
          · exact .repeated hfound ‹_› hearlier
          · cases hearlier
        · exact .unreadable path _
        · rename_i hearlier hread
          exact .enter hfound (fun hskip => by rwa [if_pos hskip] at hearlier) hread

variable {ctx stack s source st}

theorem found_of_enter {file : IncludedFile} (h : ofStatement ctx stack s source st = .ok (.enter file)) :
    Found ctx stack s source st file.path file.key ∧
      (ctx.options.skipRepeatedIncludes = true → s.included.get? file.key = none) ∧
      (ctx.filesFor s.journal file.path).readText file.path = .ok file.text := by
  have houtcome := outcome ctx stack s source st
  rw [h] at houtcome
  cases houtcome with
  | enter hfound hunseen hread => exact ⟨hfound, hunseen, hread⟩

theorem found_of_repeated {path : Path} {output : Option Path}
    (h : ofStatement ctx stack s source st = .ok (.repeated path output)) :
    ∃ key, Found ctx stack s source st path key ∧ ctx.options.skipRepeatedIncludes = true ∧
      s.included.get? key = some output := by
  have houtcome := outcome ctx stack s source st
  rw [h] at houtcome
  cases houtcome with
  | repeated hfound hskip hseen => exact ⟨_, hfound, hskip, hseen⟩

theorem kind_of_error {p : Problem} (h : ofStatement ctx stack s source st = .error p) :
    p.kind ≠ .lexical := by
  have houtcome := outcome ctx stack s source st
  rw [h] at houtcome
  cases houtcome <;> nofun

end Inclusion

end SceneConvert
