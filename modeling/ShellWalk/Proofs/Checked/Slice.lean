set_option autoImplicit false

namespace ShellWalk.Checked

variable {α : Type}

def indexMessage (length place : Nat) : String :=
  "index out of bounds: the len is " ++ toString length ++ " but the index is " ++ toString place

def startMessage (length start : Nat) : String :=
  "range start index " ++ toString start ++ " out of range for slice of length " ++ toString length

def stopMessage (length stop : Nat) : String :=
  "range end index " ++ toString stop ++ " out of range for slice of length " ++ toString length

def orderMessage (start stop : Nat) : String :=
  "slice index starts at " ++ toString start ++ " but ends at " ++ toString stop

def subtractMessage : String := "attempt to subtract with overflow"

def item (items : List α) (place : Nat) : Except String α :=
  match items[place]? with
  | some found => .ok found
  | none => .error (indexMessage items.length place)

def onward (items : List α) (start : Nat) : Except String (List α) :=
  if start ≤ items.length then .ok (items.drop start)
  else .error (startMessage items.length start)

def upTo (items : List α) (stop : Nat) : Except String (List α) :=
  if stop ≤ items.length then .ok (items.take stop) else .error (stopMessage items.length stop)

def between (items : List α) (start stop : Nat) : Except String (List α) :=
  if stop < start then .error (orderMessage start stop)
  else if stop ≤ items.length then .ok ((items.take stop).drop start)
  else .error (stopMessage items.length stop)

def minus (larger smaller : Nat) : Except String Nat :=
  if smaller ≤ larger then .ok (larger - smaller) else .error subtractMessage

theorem ahead_lt (items : List α) (place : Nat) (first : α) (rest : List α)
    (ahead : items.drop place = first :: rest) : place < items.length := by
  have counted := congrArg List.length ahead
  simp only [List.length_drop, List.length_cons] at counted
  omega

theorem ahead_get (items : List α) (place : Nat) (first : α) (rest : List α)
    (ahead : items.drop place = first :: rest) : items[place]? = some first := by
  have head := congrArg List.head? ahead
  rwa [List.head?_drop] at head

theorem ahead_getElem (items : List α) (place : Nat) (first : α) (rest : List α)
    (ahead : items.drop place = first :: rest) (inside : place < items.length) :
    items[place] = first :=
  (List.getElem?_eq_some_iff.mp (ahead_get items place first rest ahead)).2

theorem ahead_rest (items : List α) (place : Nat) (first : α) (rest : List α)
    (ahead : items.drop place = first :: rest) : items.drop (place + 1) = rest := by
  rw [← List.drop_drop, ahead]
  rfl

theorem nothing_ahead (items : List α) (place : Nat) (ahead : items.drop place = []) :
    ¬ place < items.length ∧ items[place]? = none := by
  have past := List.drop_eq_nil_iff.mp ahead
  exact ⟨by omega, List.getElem?_eq_none past⟩

theorem item_ahead (items : List α) (place : Nat) (first : α) (rest : List α)
    (ahead : items.drop place = first :: rest) : item items place = .ok first := by
  simp only [item, ahead_get items place first rest ahead]

theorem onward_ok (items : List α) (start : Nat) (inside : start ≤ items.length) :
    onward items start = .ok (items.drop start) := if_pos inside

theorem upTo_ok (items : List α) (stop : Nat) (inside : stop ≤ items.length) :
    upTo items stop = .ok (items.take stop) := if_pos inside

theorem between_ok (items : List α) (start stop : Nat) (ordered : start ≤ stop)
    (inside : stop ≤ items.length) :
    between items start stop = .ok ((items.take stop).drop start) := by
  unfold between
  rw [if_neg (by omega), if_pos inside]

theorem minus_ok (larger smaller : Nat) (fits : smaller ≤ larger) :
    minus larger smaller = .ok (larger - smaller) := if_pos fits

theorem takeWhile_inside (items : List α) (accepts : α → Bool) (start : Nat)
    (inside : start ≤ items.length) :
    start + ((items.drop start).takeWhile accepts).length ≤ items.length := by
  have shorter := (List.takeWhile_sublist (l := items.drop start) accepts).length_le
  rw [List.length_drop] at shorter
  omega

theorem drop_takeWhile (items : List α) (accepts : α → Bool) (start : Nat) :
    items.drop (start + ((items.drop start).takeWhile accepts).length) =
      (items.drop start).dropWhile accepts := by
  have split := List.takeWhile_append_dropWhile (p := accepts) (l := items.drop start)
  rw [← List.drop_drop]
  exact (congrArg (List.drop _) split.symm).trans (List.drop_left)

theorem between_takeWhile (items : List α) (accepts : α → Bool) (start : Nat)
    (inside : start ≤ items.length) :
    between items start (start + ((items.drop start).takeWhile accepts).length) =
      .ok ((items.drop start).takeWhile accepts) := by
  rw [between_ok items start _ (by omega) (takeWhile_inside items accepts start inside),
    List.drop_take, Nat.add_sub_cancel_left]
  exact congrArg Except.ok (List.prefix_iff_eq_take.mp (List.takeWhile_prefix accepts)).symm

end ShellWalk.Checked
