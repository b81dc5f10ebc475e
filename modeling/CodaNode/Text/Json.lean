/-
`Text/Json.lean` -- JSON values, and what is used of the `json` module.

A JSON value is a tree. The text of it is the business of the `json` module, of which only
`JsonCodec.Faithful` is used.
-/
import Mathlib.Data.List.Forall2
import CodaNode.Text.Strings

set_option autoImplicit false

namespace CodaNode

/-- A JSON value as `json.loads` returns it. A float is its bit pattern. -/
inductive Json where
  | null
  | bool (b : Bool)
  | int (i : Int)
  | float (bits : UInt64)
  | str (s : String)
  | arr (items : List Json)
  | obj (fields : List (String × Json))

namespace Json

/-- `bool(value)`. -/
def truthy : Json → Bool
  | null => false
  | bool b => b
  | int i => i != 0
  | float bits => bits != 0 && bits != 0x8000000000000000
  | str s => s != ""
  | arr items => !items.isEmpty
  | obj fields => !fields.isEmpty

/-- `value in ("", None, [])`. -/
def blank : Json → Bool
  | null => true
  | str s => s == ""
  | arr items => items.isEmpty
  | _ => false

end Json

/-- `json.dumps(value, indent=2)`, `json.loads(text)` and `str(value)`. -/
structure JsonCodec where
  dumps : Json → Text
  loads : Text → Except String Json
  to_str : Json → String
  to_str_str : ∀ s, to_str (.str s) = s

/-- The value is read back from its text with a newline after it; the text is not blank, and
a carriage return in it is escaped. -/
structure JsonCodec.Faithful (C : JsonCodec) (value : Json) : Prop where
  reads_back : C.loads (C.dumps value ++ ['\n']) = .ok value
  not_blank : strip (C.dumps value ++ ['\n']) ≠ []
  escaped : '\r' ∉ C.dumps value

/-- `str` of a string, and nothing of the other values. -/
def str_or_nothing : Json → String
  | .str s => s
  | _ => ""

theorem str_or_nothing_str (s : String) : str_or_nothing (.str s) = s := rfl

/-- `str | None` as JSON. -/
def Json.of_option : Option String → Json
  | none => .null
  | some s => .str s

/-- `list[str]` as JSON. -/
def Json.of_strings (items : List String) : Json := .arr (items.map .str)

/-! ## Results -/

theorem bind_ok {ε α β : Type} {x : Except ε α} {f : α → Except ε β} {b : β} :
    (x >>= f) = .ok b ↔ ∃ a, x = .ok a ∧ f a = .ok b := by
  cases x with
  | error e => exact ⟨(fun h => by cases h), fun ⟨a, ha, _⟩ => by cases ha⟩
  | ok a => exact ⟨fun h => ⟨a, rfl, h⟩, fun ⟨a', ha, h⟩ => by cases ha; exact h⟩

theorem mapError_ok {ε ε' α : Type} {f : ε → ε'} {x : Except ε α} {a : α} :
    x.mapError f = .ok a ↔ x = .ok a := by
  cases x with
  | error e => exact iff_of_false nofun nofun
  | ok b => exact ⟨(fun h => congrArg Except.ok (Except.ok.inj h)),
      fun h => congrArg Except.ok (Except.ok.inj h)⟩

theorem mapM_ok {ε α β : Type} {f : α → Except ε β} {xs : List α} {ys : List β} :
    xs.mapM f = .ok ys ↔ List.Forall₂ (fun x y => f x = .ok y) xs ys := by
  induction xs generalizing ys with
  | nil =>
      rw [List.forall₂_nil_left_iff]
      exact ⟨fun h => (Except.ok.inj h).symm, fun h => by rw [h]; rfl⟩
  | cons x xs ih =>
      rw [List.mapM_cons, List.forall₂_cons_left_iff, bind_ok]
      constructor
      · rintro ⟨y, hy, h⟩
        obtain ⟨ys', hys, h⟩ := bind_ok.1 h
        exact ⟨y, ys', hy, ih.1 hys, (Except.ok.inj h).symm⟩
      · rintro ⟨y, ys', hy, hys, rfl⟩
        exact ⟨y, hy, bind_ok.2 ⟨ys', ih.2 hys, rfl⟩⟩

/-- What is related to something of the other list. -/
theorem exists_mem_left {α β : Type} {R : α → β → Prop} {xs : List α} {ys : List β}
    (h : List.Forall₂ R xs ys) {y : β} (hy : y ∈ ys) : ∃ x ∈ xs, R x y := by
  induction h with
  | nil => cases hy
  | cons hxy _ ih =>
      rcases List.mem_cons.1 hy with rfl | hy
      · exact ⟨_, List.mem_cons_self, hxy⟩
      · obtain ⟨x, hx, hr⟩ := ih hy
        exact ⟨x, List.mem_cons_of_mem _ hx, hr⟩

/-- A loop that fails does so at one of its items. -/
theorem mapM_error {ε α β : Type} {f : α → Except ε β} {xs : List α} {e : ε}
    (h : xs.mapM f = .error e) : ∃ x ∈ xs, f x = .error e := by
  induction xs with
  | nil => cases h
  | cons x xs ih =>
      rw [List.mapM_cons] at h
      cases hx : f x with
      | error e' =>
          rw [hx] at h
          cases h
          exact ⟨x, List.mem_cons_self, hx⟩
      | ok y =>
          rw [hx] at h
          cases hxs : xs.mapM f with
          | error e' =>
              have heq : (.error e' : Except ε (List β)) = .error e := by
                rw [hxs] at h
                exact h
              cases heq
              obtain ⟨x', hx', hf⟩ := ih hxs
              exact ⟨x', List.mem_cons_of_mem x hx', hf⟩
          | ok ys =>
              rw [hxs] at h
              cases h

end CodaNode
