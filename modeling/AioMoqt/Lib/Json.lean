import AioMoqt.Lib.BigEndian
import AioMoqt.Lib.Dict

/-!
# JSON documents

What `json.loads` returns, as Python values: `null` is `None`, and a float is known by its
`repr`.
-/

namespace AioMoqt.Lib

/-- A value without parts. -/
inductive Json.Scalar where
  | null
  | bool (b : Bool)
  | int (n : Int)
  | float (repr : String)
  | str (s : String)
deriving DecidableEq

/-- A document. -/
inductive Json where
  | scalar (v : Json.Scalar)
  | arr (items : List Json)
  | obj (entries : List (String × Json))

namespace Json

@[match_pattern] abbrev null : Json := scalar .null

@[match_pattern] abbrev bool (b : Bool) : Json := scalar (.bool b)

@[match_pattern] abbrev int (n : Int) : Json := scalar (.int n)

@[match_pattern] abbrev str (s : String) : Json := scalar (.str s)

instance : Inhabited Json := ⟨null⟩

/-! ## Equality -/

mutual

/-- Equality of documents is decided part by part. -/
def decEq : (a b : Json) → Decidable (a = b)
  | scalar v, scalar w => decidable_of_iff (v = w) (by simp)
  | arr items, arr items' => match decEqItems items items' with
    | isTrue h => isTrue (congrArg arr h)
    | isFalse h => isFalse fun heq => h (arr.inj heq)
  | obj entries, obj entries' => match decEqEntries entries entries' with
    | isTrue h => isTrue (congrArg obj h)
    | isFalse h => isFalse fun heq => h (obj.inj heq)
  | scalar _, arr _ => isFalse nofun
  | scalar _, obj _ => isFalse nofun
  | arr _, scalar _ => isFalse nofun
  | arr _, obj _ => isFalse nofun
  | obj _, scalar _ => isFalse nofun
  | obj _, arr _ => isFalse nofun

def decEqItems : (xs ys : List Json) → Decidable (xs = ys)
  | [], [] => isTrue rfl
  | [], _ :: _ => isFalse nofun
  | _ :: _, [] => isFalse nofun
  | x :: xs, y :: ys => match decEq x y, decEqItems xs ys with
    | isTrue hx, isTrue hxs => isTrue (by rw [hx, hxs])
    | isFalse hx, _ => isFalse fun h => hx (List.cons.inj h).1
    | _, isFalse hxs => isFalse fun h => hxs (List.cons.inj h).2

def decEqEntries : (xs ys : List (String × Json)) → Decidable (xs = ys)
  | [], [] => isTrue rfl
  | [], _ :: _ => isFalse nofun
  | _ :: _, [] => isFalse nofun
  | (k, x) :: xs, (l, y) :: ys => match decEq x y, decEqEntries xs ys with
    | isTrue hx, isTrue hxs =>
        if hk : k = l then isTrue (by rw [hk, hx, hxs])
        else isFalse fun h => hk (Prod.ext_iff.mp (List.cons.inj h).1).1
    | isFalse hx, _ => isFalse fun h => hx (Prod.ext_iff.mp (List.cons.inj h).1).2
    | _, isFalse hxs => isFalse fun h => hxs (List.cons.inj h).2

end

instance : DecidableEq Json := decEq

/-! ## Reading a document -/

/-- `bool(v)`. -/
def truthy : Json → Bool
  | null => false
  | bool b => b
  | int n => n ≠ 0
  | scalar (.float repr) => repr ≠ "0.0" ∧ repr ≠ "-0.0"
  | str s => s ≠ ""
  | arr items => items ≠ []
  | obj entries => entries ≠ []

/-- What `for x in v` goes over: the characters of a string, the keys of an object. -/
def items? : Json → Option (List Json)
  | arr items => some items
  | obj entries => some (entries.map fun entry => str entry.1)
  | str s => some (s.toList.map fun c => str c.toString)
  | _ => none

/-- An object as a dictionary. -/
def dict? : Json → Option (Dict String Json)
  | obj entries => some (.ofEntries entries)
  | _ => none

/-- A dictionary as a document. -/
def ofDict (d : Dict String Json) : Json := obj d.entries

@[simp] theorem dict?_ofDict (d : Dict String Json) : (ofDict d).dict? = some d := by
  rw [ofDict, dict?, Dict.ofEntries_entries]

@[simp] theorem items?_arr (items : List Json) : (arr items).items? = some items := rfl

/-- `bool(d)` of a dictionary. -/
theorem truthy_arr (items : List Json) : (arr items).truthy = !items.isEmpty := by
  cases items <;> simp [truthy]

end Json

end AioMoqt.Lib
