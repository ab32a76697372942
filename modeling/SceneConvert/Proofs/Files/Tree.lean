import SceneConvert.Proofs.Path.Names

/-!
# SceneConvert.Proofs.Files.Tree

What becomes of a tree when files are written.

* `FileTree.Extends`, `FileTree.Grows`: every node is still there; of a tree that grows, a file perhaps
  with another content. What a path leads to, it leads to in every tree that has grown
  (`Grows.locate`).
* `enter_cases`, `walk_append`, `forall_walk`: walks, one segment after the other.
* `locate_extend`: a file that grows stays where it is.
* `FileTree.AddsDirectories`, `addsDirectories_makeDirectories`: making directories adds directories, and
  changes no file.
* `write_spec`, `find_write`: a file that is written is found at its path with its content, and no
  other node changes.
* `locate_join`, `locate_join_inj`: names below one directory lead to places below its own, different
  names to different ones.
-/

namespace SceneConvert

open SceneConvert.Path

namespace FileTree

/-! ## Nodes -/

theorem lookup_map_put {es : List (Place × Node)} {place q : Place} {node : Node} :
    (es.map fun entry => if entry.1 == place then (place, node) else entry).lookup q =
      if q = place ∧ es.any (·.1 == place) then some node else es.lookup q := by
  induction es with
  | nil => simp
  | cons e es ih =>
    obtain ⟨k, n⟩ := e
    by_cases hk : k = place
    · subst hk
      by_cases hq : q = k
      · simp [hq]
      · have hqk : (q == k) = false := by simpa using hq
        simp only [List.map_cons, beq_self_eq_true, ↓reduceIte, List.lookup_cons, hqk, ih, hq,
          false_and]
    · have hkp : (k == place) = false := by simpa using hk
      simp only [List.map_cons, hkp, Bool.false_eq_true, ↓reduceIte, List.lookup_cons, ih,
        List.any_cons, Bool.false_or]
      by_cases hq : q = k
      · have hqp : q ≠ place := fun e => hk (hq.symm.trans e)
        simp [hqp]
      · have hqk : (q == k) = false := by simpa using hq
        simp [hqk]

theorem lookup_append_put {es : List (Place × Node)} {place q : Place} {node : Node}
    (h : es.any (·.1 == place) = false) :
    (es ++ [(place, node)]).lookup q = if q = place then some node else es.lookup q := by
  rw [List.lookup_append]
  by_cases hq : q = place
  · have hnone : es.lookup place = none := by
      rw [List.lookup_eq_none_iff]
      intro e he
      have hne : e.1 ≠ place := by simpa using List.any_eq_false.1 h e he
      simpa using Ne.symm hne
    simp [hq, hnone]
  · have hqp : (q == place) = false := by simpa using hq
    simp [List.lookup_cons, hq, hqp]

theorem node?_put {t : FileTree} {place q : Place} {node : Node} (hplace : place ≠ []) :
    (t.put place node).node? q = if q = place then some node else t.node? q := by
  have hroot : q.isEmpty = true → q ≠ place := by
    rintro hq rfl
    exact hplace (List.isEmpty_iff.1 hq)
  unfold node? put
  split
  · rename_i hq
    simp [hroot hq]
  · split
    · rename_i hany
      rw [lookup_map_put]
      simp [hany]
    · rename_i hany
      exact lookup_append_put (Bool.not_eq_true _ ▸ hany)

/-! ## Walks -/

theorem enter_cases {t : FileTree} {place q : Place} {s : List Char} (h : t.enter place s = .ok q) :
    t.isDirectoryAt place = true ∧
      (isIdle s = true ∧ q = place ∨ s = ['.', '.'] ∧ q = place.dropLast ∨
        isName s = true ∧ q = place ++ [String.ofList s]) := by
  unfold enter at h
  split at h
  · cases h
  · rename_i hdir
    refine ⟨by simpa using hdir, ?_⟩
    split at h
    · rename_i hidle
      cases h
      exact .inl ⟨hidle, rfl⟩
    · rename_i hidle
      split at h
      · rename_i hparent
        cases h
        exact .inr (.inl ⟨hparent, rfl⟩)
      · rename_i hparent
        split at h
        · cases h
        · dsimp only at h
          split at h <;> cases h
          exact .inr (.inr ⟨by simp [isName, hidle, hparent], rfl⟩)

theorem walk_append (t : FileTree) (place : Place) (ss ss' : List (List Char)) :
    t.walk place (ss ++ ss') = (t.walk place ss).bind fun q => t.walk q ss' := by
  induction ss generalizing place with
  | nil => rfl
  | cons s ss ih =>
    rw [List.cons_append, walk, walk]
    cases t.enter place s with
    | error e => rfl
    | ok next => exact ih next

theorem forall_walk {P : String → Prop} {t : FileTree} {place q : Place}
    {segments : List (List Char)} (hplace : ∀ n ∈ place, P n)
    (hsegments : ∀ s ∈ segments, isName s = true → P (String.ofList s))
    (h : t.walk place segments = .ok q) : ∀ n ∈ q, P n := by
  induction segments generalizing place with
  | nil =>
    cases h
    exact hplace
  | cons s ss ih =>
    rw [walk] at h
    split at h
    · cases h
    · rename_i next hnext
      refine ih ?_ (fun s hs => hsegments s (List.mem_cons_of_mem _ hs)) h
      obtain ⟨-, ⟨-, rfl⟩ | ⟨-, rfl⟩ | ⟨hs, rfl⟩⟩ := enter_cases hnext
      · exact hplace
      · exact fun n hn => hplace n ((List.dropLast_sublist _).subset hn)
      · intro n hn
        rcases List.mem_append.1 hn with hn | hn
        · exact hplace n hn
        · exact List.mem_singleton.1 hn ▸ hsegments s List.mem_cons_self hs

/-! ## Growth -/

/-- Every node of a tree is one of the other, a file perhaps with another content. -/
structure Grows (t u : FileTree) : Prop where
  workingDirectory : u.workingDirectory = t.workingDirectory
  directory : ∀ place, t.node? place = some .directory → u.node? place = some .directory
  file : ∀ place content, t.node? place = some (.file content) →
    ∃ content', u.node? place = some (.file content')

namespace Grows

theorem trans {t u v : FileTree} (h : Grows t u) (h' : Grows u v) : Grows t v where
  workingDirectory := h'.workingDirectory.trans h.workingDirectory
  directory place hp := h'.directory place (h.directory place hp)
  file place content hp := by
    obtain ⟨content', hc⟩ := h.file place content hp
    exact h'.file place content' hc

theorem isSome {t u : FileTree} (h : Grows t u) {place : Place} (hp : (t.node? place).isSome) :
    (u.node? place).isSome := by
  cases hn : t.node? place with
  | none => simp [hn] at hp
  | some node =>
    cases node with
    | directory => simp [h.directory place hn]
    | file content =>
      obtain ⟨content', hc⟩ := h.file place content hn
      simp [hc]

theorem isDirectoryAt {t u : FileTree} (h : Grows t u) {place : Place}
    (hp : t.isDirectoryAt place = true) : u.isDirectoryAt place = true := by
  have hd : t.node? place = some .directory := by
    unfold FileTree.isDirectoryAt at hp
    split at hp
    · assumption
    · cases hp
  simp [FileTree.isDirectoryAt, h.directory place hd]

theorem enter {t u : FileTree} (h : Grows t u) {place q : Place} {segment : List Char}
    (hq : t.enter place segment = .ok q) : u.enter place segment = .ok q := by
  unfold FileTree.enter at hq ⊢
  cases hdir : t.isDirectoryAt place with
  | false => simp [hdir] at hq
  | true =>
    rw [h.isDirectoryAt hdir]
    rw [hdir] at hq
    dsimp only at hq ⊢
    cases hnode : (t.node? (place ++ [String.ofList segment])).isSome with
    | true => simpa only [hnode, h.isSome hnode] using hq
    | false =>
      -- what is not there can only be entered as the directory itself or its parent
      simp only [hnode, Bool.false_eq_true, ↓reduceIte] at hq
      split at hq
      · cases hq
      · rename_i hdirectory
        rw [if_neg hdirectory]
        split at hq
        · rename_i hidle
          rw [if_pos hidle]
          exact hq
        · rename_i hidle
          rw [if_neg hidle]
          split at hq
          · rename_i hparent
            rw [if_pos hparent]
            exact hq
          · split at hq <;> cases hq

theorem walk {t u : FileTree} (h : Grows t u) {place q : Place} {segments : List (List Char)}
    (hq : t.walk place segments = .ok q) : u.walk place segments = .ok q := by
  induction segments generalizing place with
  | nil => exact hq
  | cons s ss ih =>
    unfold FileTree.walk at hq ⊢
    split at hq
    · cases hq
    · rename_i next hnext
      rw [h.enter hnext]
      exact ih hq

theorem locate {t u : FileTree} (h : Grows t u) {p : Path} {place : Place}
    (hp : t.locate p = .ok place) : u.locate p = .ok place := by
  unfold FileTree.locate at hp ⊢
  split at hp
  · cases hp
  · rename_i hdefect
    have hstart : u.start p = t.start p := by simp [FileTree.start, h.workingDirectory]
    rw [hstart]
    exact h.walk hp

end Grows

/-- All nodes of a tree are nodes of the other. -/
structure Extends (t u : FileTree) : Prop where
  workingDirectory : u.workingDirectory = t.workingDirectory
  node : ∀ place node, t.node? place = some node → u.node? place = some node

namespace Extends

theorem refl (t : FileTree) : Extends t t := ⟨rfl, fun _ _ h => h⟩

theorem trans {t u v : FileTree} (h : Extends t u) (h' : Extends u v) : Extends t v :=
  ⟨h'.workingDirectory.trans h.workingDirectory, fun q n hn => h'.node q n (h.node q n hn)⟩

theorem grows {t u : FileTree} (h : Extends t u) : Grows t u :=
  ⟨h.workingDirectory, fun q => h.node q _, fun q c hc => ⟨c, h.node q _ hc⟩⟩

end Extends

/-- All nodes of a tree are nodes of the other, which has no other file. -/
structure AddsDirectories (t u : FileTree) : Prop extends Extends t u where
  file : ∀ place content, u.node? place = some (.file content) → t.node? place = some (.file content)

namespace AddsDirectories

theorem refl (t : FileTree) : AddsDirectories t t := ⟨.refl t, fun _ _ h => h⟩

theorem trans {t u v : FileTree} (h : AddsDirectories t u) (h' : AddsDirectories u v) :
    AddsDirectories t v :=
  ⟨h.toExtends.trans h'.toExtends, fun q c hc => h.file q c (h'.file q c hc)⟩

end AddsDirectories

/-! ## A file that grows -/

theorem lookup_extend {es : List (Place × Node)} {place q : Place} {more : ByteArray} :
    (es.map fun (k, node) => (k, if k = place then node.extend more else node)).lookup q =
      (es.lookup q).map fun node => if q = place then node.extend more else node := by
  induction es with
  | nil => rfl
  | cons e es ih =>
    obtain ⟨k, node⟩ := e
    by_cases hk : q = k
    · simp [hk]
    · have hqk : (q == k) = false := by simpa using hk
      simpa [List.lookup_cons, hqk] using ih

theorem node?_extend (t : FileTree) (place q : Place) (more : ByteArray) :
    (t.extend place more).node? q =
      (t.node? q).map fun node => if q = place then node.extend more else node := by
  unfold node?
  split
  · split <;> rfl
  · exact lookup_extend

theorem enter_extend (t : FileTree) (place q : Place) (more : ByteArray) (s : List Char) :
    (t.extend place more).enter q s = t.enter q s := by
  have hdir : (t.extend place more).isDirectoryAt q = t.isDirectoryAt q := by
    unfold isDirectoryAt
    rw [node?_extend]
    cases t.node? q with
    | none => rfl
    | some node => cases node <;> by_cases hq : q = place <;> simp [hq, Node.extend]
  unfold enter
  simp only [hdir, node?_extend, Option.isSome_map]

/-- A path leads where it led before a file grew. -/
theorem locate_extend (t : FileTree) (place : Place) (more : ByteArray) (p : Path) :
    (t.extend place more).locate p = t.locate p := by
  have hwalk (q : Place) (ss : List (List Char)) : (t.extend place more).walk q ss = t.walk q ss := by
    induction ss generalizing q with
    | nil => rfl
    | cons s ss ih => simp only [walk, enter_extend, ih]
  unfold locate
  rw [hwalk]
  rfl

/-! ## Directories -/

theorem workingDirectory_put (t : FileTree) (place : Place) (node : Node) :
    (t.put place node).workingDirectory = t.workingDirectory := by
  unfold put
  split <;> rfl

theorem append_singleton_ne_nil (place : Place) (n : String) : place ++ [n] ≠ [] := by simp

theorem addsDirectories_makeDirectory {t u : FileTree} {p : Path} (h : t.makeDirectory p = .ok u) :
    AddsDirectories t u := by
  unfold makeDirectory at h
  cases hslot : t.slot p with
  | error e => rw [hslot] at h; cases h
  | ok slot =>
    obtain ⟨place, last⟩ := slot
    rw [hslot] at h
    dsimp only [Except.bind] at h
    split at h
    · cases h
    · split at h
      · cases h
      · rename_i habsent
        cases h
        have hput (q : Place) : (t.put (place ++ [String.ofList last]) .directory).node? q =
            if q = place ++ [String.ofList last] then some .directory else t.node? q :=
          node?_put (append_singleton_ne_nil _ _)
        refine ⟨⟨workingDirectory_put .., fun q node hq => ?_⟩, fun q content hq => ?_⟩
        · rw [hput, if_neg]
          · exact hq
          · rintro rfl
            simp [hq] at habsent
        · rw [hput] at hq
          split at hq
          · cases hq
          · exact hq

theorem addsDirectories_makeDirectoriesTo (depth : Nat) (t : FileTree) (p : Path) :
    AddsDirectories t (t.makeDirectoriesTo depth p).1 := by
  fun_induction makeDirectoriesTo depth t p with
  | case1 => exact .refl _
  | case2 _ _ _ _ h => exact addsDirectories_makeDirectory h
  | case3 p _ _ _ _ _ _ _ h ih => exact h ▸ ih
  | case4 p _ _ _ _ _ _ h _ hmake ih =>
    rw [h] at ih
    exact ih.trans (addsDirectories_makeDirectory hmake)
  | case5 p _ _ _ _ _ _ h _ _ ih =>
    rw [h] at ih
    exact ih
  | case6 => exact .refl _
  | case7 => exact .refl _

theorem addsDirectories_makeDirectories (t : FileTree) (p : Path) :
    AddsDirectories t (t.makeDirectories p).1 := addsDirectories_makeDirectoriesTo _ t p

/-! ## Files -/

theorem walk_append_name {t : FileTree} {place q : Place} {segments : List (List Char)} {n : String}
    (hn : IsName n) (hq : t.walk place segments = .ok q) (hdir : t.isDirectoryAt q = true)
    (hlong : Path.isOverlong n.toList = false) (hnode : (t.node? (q ++ [n])).isSome) :
    t.walk place (segments ++ [n.toList]) = .ok (q ++ [n]) := by
  have hparent : n.toList ≠ ['.', '.'] := fun e => hn.ne_parent (String.toList_inj.1 e)
  rw [walk_append, hq]
  simp [Except.bind, walk, enter, hdir, hn.isIdle, hparent, hlong, hnode]

theorem grows_put {t : FileTree} {place : Place} (content : ByteArray) (hplace : place ≠ [])
    (h : t.node? place ≠ some .directory) : Grows t (t.put place (.file content)) where
  workingDirectory := workingDirectory_put ..
  directory q hq := by
    rw [node?_put hplace, if_neg]
    · exact hq
    · rintro rfl
      exact h hq
  file q c hq := by
    rw [node?_put hplace]
    split
    · exact ⟨content, rfl⟩
    · exact ⟨c, hq⟩

theorem slot_eq {t : FileTree} {p : Path} {before : List (List Char)} {n : String} (hn : IsName n)
    (hp : splitSlashes p.text.toList = before ++ [n.toList]) {place : Place} {last : List Char}
    (h : t.slot p = .ok (place, last)) :
    p.defect? = none ∧ t.walk (t.start p) before = .ok place ∧ t.isDirectoryAt place = true ∧
      Path.isOverlong n.toList = false ∧ last = n.toList := by
  have hempty : n.toList ≠ [] := fun e => hn.ne_empty (String.toList_inj.1 e)
  unfold slot at h
  split at h
  · cases h
  · rename_i hdefect
    simp only [hp, List.reverse_append, List.reverse_cons, List.reverse_nil, List.nil_append,
      List.singleton_append, List.dropWhile_cons, List.isEmpty_iff, hempty,
      ↓reduceIte, List.reverse_reverse] at h
    cases hwalk : t.walk (t.start p) before with
    | error e => rw [hwalk] at h; cases h
    | ok q =>
      rw [hwalk] at h
      dsimp only [Except.bind] at h
      split at h
      · cases h
      · rename_i hdir
        split at h
        · cases h
        · rename_i hlong
          cases h
          exact ⟨hdefect, rfl, by simpa using hdir, by simpa using hlong, rfl⟩

theorem write_spec {t u : FileTree} {p : Path} {content : ByteArray} {before : List (List Char)}
    {n : String} (hn : IsName n) (hp : splitSlashes p.text.toList = before ++ [n.toList])
    (h : t.write p content = .ok u) :
    ∃ target, target ≠ [] ∧ u = t.put target (.file content) ∧
      t.node? target ≠ some .directory ∧ u.locate p = .ok target := by
  unfold write store at h
  cases hslot : t.slot p with
  | error e => rw [hslot] at h; cases h
  | ok slot =>
    obtain ⟨place, last⟩ := slot
    obtain ⟨hdefect, hwalk, hdir, hlong, rfl⟩ := slot_eq hn hp hslot
    have hne := append_singleton_ne_nil place n
    rw [hslot] at h
    dsimp only [Except.bind] at h
    split at h
    · cases h
    · rw [String.ofList_toList] at h
      have hu : t.node? (place ++ [n]) ≠ some .directory ∧
          u = t.put (place ++ [n]) (.file content) := by
        split at h <;> cases h <;> simp_all
      obtain ⟨hfree, rfl⟩ := hu
      refine ⟨_, hne, rfl, hfree, ?_⟩
      have hgrows := grows_put content hne hfree
      have hstart : (t.put (place ++ [n]) (.file content)).start p = t.start p := by
        simp [start, hgrows.workingDirectory]
      unfold locate
      rw [hdefect, hp, hstart]
      refine walk_append_name hn (hgrows.walk hwalk) (hgrows.isDirectoryAt hdir) hlong ?_
      simp [node?_put hne]

theorem endsInSlash_of_splitSlashes {cs : List Char} {ss : List (List Char)}
    (h : splitSlashes cs = ss ++ [[]]) (hne : cs ≠ []) : cs.getLast? = some '/' := by
  induction cs generalizing ss with
  | nil => exact absurd rfl hne
  | cons c cs ih =>
    obtain ⟨u, us, hs⟩ := List.exists_cons_of_ne_nil (splitSlashes_ne_nil cs)
    have behind {ts : List (List Char)} (hts : splitSlashes cs = ts ++ [[]]) (hcs : cs ≠ []) :
        (c :: cs).getLast? = some '/' := by
      rw [List.getLast?_cons, ih hts hcs]
      rfl
    by_cases hc : c = '/'
    · subst hc
      rw [splitSlashes, if_pos rfl] at h
      by_cases hcs : cs = []
      · simp [hcs]
      · cases ss with
        | nil => simp [hs] at h
        | cons t ts => exact behind (List.cons.inj h).2 hcs
    · rw [splitSlashes_cons hc hs] at h
      cases ss with
      | nil => simp at h
      | cons t ts =>
        obtain ⟨-, rfl⟩ := List.cons.inj h
        refine @behind (u :: ts) hs ?_
        rintro rfl
        simp [splitSlashes] at hs

/-- Where a path would make a node, its last segment is that of the path, unless the path ends in a
slash. -/
theorem exists_split_of_slot {t : FileTree} {p : Path} {place : Place} {last : List Char}
    (h : t.slot p = .ok (place, last)) (hend : p.text.toList.getLast? ≠ some '/') :
    ∃ before, splitSlashes p.text.toList = before ++ [last] := by
  unfold slot at h
  split at h
  · cases h
  · rename_i hdefect
    have hne : p.text.toList ≠ [] := by
      intro hempty
      have htext : p.text = "" := String.toList_inj.1 hempty
      simp [Path.defect?, htext] at hdefect
    obtain ⟨before, final, hsplit⟩ : ∃ before final, splitSlashes p.text.toList = before ++ [final] :=
      ⟨_, _, (List.dropLast_concat_getLast (splitSlashes_ne_nil _)).symm⟩
    have hfinal : final ≠ [] := fun e => hend (endsInSlash_of_splitSlashes (e ▸ hsplit) hne)
    simp only [hsplit, List.reverse_append, List.reverse_cons, List.reverse_nil, List.nil_append,
      List.singleton_append, List.dropWhile_cons, List.isEmpty_iff, hfinal, ↓reduceIte] at h
    cases hwalk : t.walk (t.start p) before.reverse.reverse with
    | error e => rw [hwalk] at h; cases h
    | ok q =>
      rw [hwalk] at h
      dsimp only [Except.bind] at h
      split at h
      · cases h
      · split at h <;> cases h
        exact ⟨before, hsplit⟩

theorem exists_name_of_write {t u : FileTree} {p : Path} {content : ByteArray}
    (h : t.write p content = .ok u) :
    ∃ before n, IsName n ∧ splitSlashes p.text.toList = before ++ [n.toList] := by
  unfold write store at h
  cases hslot : t.slot p with
  | error e => rw [hslot] at h; cases h
  | ok slot =>
    obtain ⟨place, last⟩ := slot
    rw [hslot] at h
    dsimp only [Except.bind] at h
    split at h
    · cases h
    · rename_i hname
      obtain ⟨hlast, hend⟩ : isName last = true ∧ p.text.toList.getLast? ≠ some '/' := by
        simpa using hname
      obtain ⟨before, hsplit⟩ := exists_split_of_slot hslot hend
      obtain ⟨hidle, hparent⟩ : Path.isIdle last = false ∧ last ≠ ['.', '.'] := by
        simpa [isName] using hlast
      have hslash : '/' ∉ last :=
        not_mem_of_mem_splitSlashes (hsplit ▸ List.mem_append_right before (List.mem_singleton_self last))
      have hsegment : segmentComponent? last = some (.name (String.ofList last)) := by
        simp [Path.segmentComponent?, hidle, hparent]
      refine ⟨before, String.ofList last, isName_of_segmentComponent? hslash hsegment, ?_⟩
      rw [hsplit, String.toList_ofList]

theorem find_write {t u : FileTree} {p : Path} {content : ByteArray}
    (h : t.write p content = .ok u) : u.find p = .ok (.file content) := by
  obtain ⟨before, n, hn, hp⟩ := exists_name_of_write h
  obtain ⟨target, htarget, rfl, -, hlocate⟩ := write_spec hn hp h
  simp [find, hlocate, Except.bind, node?_put htarget]

theorem walk_names {t : FileTree} {place q : Place} {segments : List (List Char)} {ns : List String}
    (hns : ∀ n ∈ ns, IsName n) (h : t.walk place (segments ++ ns.map String.toList) = .ok q) :
    ∃ base, t.walk place segments = .ok base ∧ q = base ++ ns := by
  induction segments generalizing place with
  | nil =>
    refine ⟨place, rfl, ?_⟩
    rw [List.nil_append] at h
    induction ns generalizing place with
    | nil => cases h; simp
    | cons n ns ih =>
      have hn := hns n List.mem_cons_self
      have hparent : n.toList ≠ ['.', '.'] := fun e => hn.ne_parent (String.toList_inj.1 e)
      rw [List.map_cons, walk] at h
      split at h
      · cases h
      · rename_i next hnext
        have hbelow : next = place ++ [n] := by
          obtain ⟨-, ⟨hidle, -⟩ | ⟨hdots, -⟩ | ⟨-, hnext⟩⟩ := enter_cases hnext
          · exact absurd hidle (by simp [hn.isIdle])
          · exact absurd hdots hparent
          · rw [hnext, String.ofList_toList]
        have htail := ih (fun m hm => hns m (List.mem_cons_of_mem n hm)) h
        rw [htail, hbelow, List.append_assoc, List.singleton_append]
  | cons s ss ih =>
    rw [List.cons_append, walk] at h
    rw [walk]
    split at h
    · cases h
    · exact ih h

theorem locate_join {t : FileTree} {dir : Path} {ns : List String} (hns : ∀ n ∈ ns, IsName n)
    (hne : ns ≠ []) {place : Place} (h : t.locate (dir.join (ofNames ns)) = .ok place) :
    ∃ base, t.walk (t.start dir) dir.leading = .ok base ∧ place = base ++ ns := by
  have hstart : t.start (dir.join (ofNames ns)) = t.start dir := by
    simp [start, isAbsolute_join dir hns]
  unfold locate at h
  split at h
  · cases h
  · rw [splitSlashes_join dir hns hne, hstart] at h
    exact walk_names hns h

/-- Different names below one directory are different places. -/
theorem locate_join_inj {t : FileTree} {dir : Path} {ns ns' : List String} {place : Place}
    (hns : ∀ n ∈ ns, IsName n) (hns' : ∀ n ∈ ns', IsName n) (hne : ns ≠ []) (hne' : ns' ≠ [])
    (h : t.locate (dir.join (ofNames ns)) = .ok place)
    (h' : t.locate (dir.join (ofNames ns')) = .ok place) : ns = ns' := by
  obtain ⟨base, hbase, rfl⟩ := locate_join hns hne h
  obtain ⟨base', hbase', hplace⟩ := locate_join hns' hne' h'
  cases hbase.symm.trans hbase'
  exact List.append_cancel_left hplace

end FileTree

end SceneConvert
