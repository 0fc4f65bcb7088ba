/-
  NewApi.Lib.JsonValue

  Decoded JSON values, whatever the numbers are.  The members of an object are a
  list, of which the last one of a name counts.
-/

namespace NewApi.Lib

/-- What `json.Unmarshal` makes of a text, for an `any`. -/
inductive JsonValue (N : Type) where
  | null
  | bool (b : Bool)
  | number (n : N)
  | string (s : String)
  | array (items : List (JsonValue N))
  | object (members : List (String × JsonValue N))

namespace JsonValue

variable {N : Type}

def lookup (name : String) : List (String × JsonValue N) → Option (JsonValue N)
  | [] => none
  | (n, v) :: rest => (lookup name rest).or (if n = name then some v else none)

/-- `v["name"]` of an object. -/
def member (v : JsonValue N) (name : String) : Option (JsonValue N) :=
  match v with
  | object members => lookup name members
  | _ => none

/-- `v.(string)` -/
def asString : JsonValue N → Option String
  | string s => some s
  | _ => none

/-- `v["name"].(string)` -/
def stringMember (v : JsonValue N) (name : String) : Option String := (v.member name).bind asString

/-- `v.(map[string]any)` succeeds. -/
def isObject : JsonValue N → Bool
  | object _ => true
  | _ => false

/-- The same value, whatever the order in which members are listed. -/
inductive Same : JsonValue N → JsonValue N → Prop where
  | null : Same .null .null
  | bool (b : Bool) : Same (.bool b) (.bool b)
  | number (n : N) : Same (.number n) (.number n)
  | string (s : String) : Same (.string s) (.string s)
  | array {xs ys : List (JsonValue N)} : xs.length = ys.length →
      (∀ (i : Nat) x y, xs[i]? = some x → ys[i]? = some y → Same x y) → Same (.array xs) (.array ys)
  | object {ms ns : List (String × JsonValue N)} :
      (∀ name, (lookup name ms).isSome = (lookup name ns).isSome) →
      (∀ name v w, lookup name ms = some v → lookup name ns = some w → Same v w) →
      Same (.object ms) (.object ns)

theorem lookup_mem {name : String} {v : JsonValue N} {members : List (String × JsonValue N)}
    (h : lookup name members = some v) : (name, v) ∈ members := by
  induction members with
  | nil => cases h
  | cons m rest ih =>
    obtain ⟨n, u⟩ := m
    rcases Option.or_eq_some_iff.mp h with h | ⟨-, h⟩
    · exact List.mem_cons_of_mem _ (ih h)
    split at h
    · rename_i hname
      cases h
      rw [hname]
      exact List.mem_cons_self
    · cases h

theorem lookup_isSome_iff {name : String} {members : List (String × JsonValue N)} :
    (lookup name members).isSome ↔ name ∈ members.map Prod.fst := by
  induction members with
  | nil => simp [lookup]
  | cons m rest ih =>
    obtain ⟨n, u⟩ := m
    rw [lookup, Option.isSome_or, Bool.or_eq_true, ih, List.map_cons, List.mem_cons]
    by_cases hname : n = name
    · simp [hname]
    · simp [hname, Ne.symm hname]

end JsonValue

end NewApi.Lib
