/-!
# SceneConvert.Scene.Dictionary

Values under names, the newest first.
-/

namespace SceneConvert

structure Dictionary (κ β : Type) where
  entries : List (κ × β) := []

namespace Dictionary

variable {κ β : Type} [BEq κ]

def get? (d : Dictionary κ β) (name : κ) : Option β := d.entries.lookup name

def contains (d : Dictionary κ β) (name : κ) : Bool := (d.get? name).isSome

/-- Puts a value under a name, in place of an older one. -/
def set (d : Dictionary κ β) (name : κ) (value : β) : Dictionary κ β :=
  ⟨(name, value) :: d.entries.filter fun e => !(e.1 == name)⟩

variable [LawfulBEq κ]

@[simp] theorem get?_set_self (d : Dictionary κ β) (name : κ) (value : β) :
    (d.set name value).get? name = some value := by
  simp [get?, set]

theorem get?_set_of_ne (d : Dictionary κ β) {name other : κ} (value : β) (h : other ≠ name) :
    (d.set name value).get? other = d.get? other := by
  have drop (es : List (κ × β)) :
      (es.filter fun e => !(e.1 == name)).lookup other = es.lookup other := by
    induction es with
    | nil => rfl
    | cons e es ih =>
      obtain ⟨k, v⟩ := e
      by_cases hk : k = name
      · have hn : (other == name) = false := by simpa using h
        simp [hk, List.lookup_cons, ih, hn]
      · simp [hk, List.lookup_cons, ih]
  have hn : (other == name) = false := by simpa using h
  simp [get?, set, List.lookup_cons, hn, drop]

end Dictionary

end SceneConvert
