import RegEngine.Lib.Json

/-!
# A fragment of Rego

Modules of complete rules, default values and partial sets whose bodies compare documents, test
membership and bind local variables. A reference or a body that finds no value is undefined; two
definitions of a complete rule that give different values are a conflict.

A set is the array of its members in Rego's order, as OPA writes it in an answer. `document` follows
references between rules to a depth; since Rego has no recursion, the number of rules is deep enough
(`Module.query`). `sprintf` is the built-in formatting function.

* `document_complete`, `document_default`, `document_set`: a rule's document, from the outcomes of
  its bodies.
-/

namespace Lib.Rego

/-! ## Outcomes -/

/-- What an evaluation comes to. -/
inductive Outcome (α : Type) where
  | conflict
  | undefined
  | value (a : α)

namespace Outcome

variable {α β : Type}

def bind : Outcome α → (α → Outcome β) → Outcome β
  | conflict, _ => conflict
  | undefined, _ => undefined
  | value a, f => f a

/-- The values among some outcomes, unless one of them is a conflict. -/
def collect : List (Outcome α) → Outcome (List α)
  | [] => value []
  | conflict :: _ => conflict
  | undefined :: os => collect os
  | value a :: os => (collect os).bind fun l => value (a :: l)

@[simp] theorem bind_value (a : α) (f : α → Outcome β) : (value a).bind f = f a := rfl

@[simp] theorem bind_undefined (f : α → Outcome β) : undefined.bind f = undefined := rfl

/-- A value when the condition holds, else undefined. -/
def guard (p : Prop) [Decidable p] (a : α) : Outcome α := if p then value a else undefined

@[simp] theorem guard_pos {p : Prop} [Decidable p] (h : p) (a : α) : guard p a = value a :=
  if_pos h

@[simp] theorem guard_neg {p : Prop} [Decidable p] (h : ¬ p) (a : α) : guard p a = undefined :=
  if_neg h

@[simp] theorem bind_value_right (o : Outcome α) : (o.bind fun a => value a) = o := by
  cases o <;> rfl

theorem guard_congr {p q : Prop} [Decidable p] [Decidable q] (h : p ↔ q) (a : α) :
    guard p a = guard q a := by
  by_cases hp : p
  · rw [guard_pos hp, guard_pos (h.1 hp)]
  · rw [guard_neg hp, guard_neg fun hq => hp (h.2 hq)]

theorem guard_bind_value {p : Prop} [Decidable p] (a : α) (b : β) :
    ((guard p a).bind fun _ => value b) = guard p b := by
  by_cases h : p <;> simp [h]

theorem guard_bind_guard {p q r : Prop} [Decidable p] [Decidable q] [Decidable r]
    (h : r ↔ p ∧ q) (a : α) : ((guard p a).bind fun b => guard q b) = guard r a := by
  by_cases hp : p <;> by_cases hq : q <;> simp [hp, hq, h]

theorem collect_value : ∀ {os : List (Outcome α)}, (∀ o ∈ os, o ≠ conflict) →
    ∃ vs, collect os = value vs ∧ ∀ a, a ∈ vs ↔ value a ∈ os
  | [], _ => ⟨[], rfl, by simp⟩
  | conflict :: _, h => absurd rfl (h _ List.mem_cons_self)
  | undefined :: os, h => by
    obtain ⟨vs, hvs, hmem⟩ := collect_value fun o ho => h o (List.mem_cons_of_mem _ ho)
    exact ⟨vs, hvs, by simpa using hmem⟩
  | value a :: os, h => by
    obtain ⟨vs, hvs, hmem⟩ := collect_value fun o ho => h o (List.mem_cons_of_mem _ ho)
    refine ⟨a :: vs, by simp [collect, hvs], fun b => ?_⟩
    simp [hmem]

end Outcome

open Outcome

/-! ## Syntax -/

inductive CmpOp where
  | eq
  | ne
  | lt
  | le
  | gt
  | ge
  deriving DecidableEq

def CmpOp.text : CmpOp → String
  | eq => "=="
  | ne => "!="
  | lt => "<"
  | le => "<="
  | gt => ">"
  | ge => ">="

def CmpOp.holds : CmpOp → Ordering → Bool
  | eq, o => o == .eq
  | ne, o => o != .eq
  | lt, o => o == .lt
  | le, o => o != .gt
  | gt, o => o == .gt
  | ge, o => o != .lt

/-- The relation of an operator on numbers. -/
def CmpOp.Rel : CmpOp → Rat → Rat → Prop
  | eq, p, q => p = q
  | ne, p, q => p ≠ q
  | lt, p, q => p < q
  | le, p, q => p ≤ q
  | gt, p, q => q < p
  | ge, p, q => q ≤ p

theorem CmpOp.holds_compare (op : CmpOp) (p q : Rat) :
    op.holds (compare p q) = true ↔ op.Rel p q := by
  cases op <;> simp [CmpOp.holds, CmpOp.Rel, compare_lt_iff_lt, compare_gt_iff_gt]

/-- Terms. `quoted` is a string literal written by putting quotes around the text, which denotes that
text as long as it has no quote, backslash or line break in it. -/
inductive Term where
  | lit (v : Json)
  | quoted (s : String)
  | input (path : List String)
  | var (x : String)
  | rule (name : String)
  | array (items : List Term)
  | set (items : List Term)
  | object (fields : List (String × Term))
  | sprintf (format : Term) (args : Term)

inductive Literal where
  | holds (t : Term)
  | cmp (op : CmpOp) (l r : Term)
  | mem (l r : Term)
  | assign (x : String) (t : Term)

inductive Rule where
  | default (name : String) (value : Json)
  | complete (name : String) (value : Term) (body : List Literal)
  | partialSet (name : String) (key : Term) (body : List Literal)

structure Module where
  package : String
  rules : List Rule

mutual

/-- The source text of a term; an object literal has one field a line. -/
def Term.text : Term → String
  | .lit v => v.render
  | .quoted s => "\"" ++ s ++ "\""
  | .input path => "input" ++ String.join (path.map fun k => "." ++ k)
  | .var x => x
  | .rule name => name
  | .array items => "[" ++ ", ".intercalate (Term.texts items) ++ "]"
  | .set items => "\x7b" ++ ", ".intercalate (Term.texts items) ++ "\x7d"
  | .object fields => "\x7b\n" ++ String.join (Term.fieldTexts fields) ++ "\x7d"
  | .sprintf format args => "sprintf(" ++ format.text ++ ", " ++ args.text ++ ")"

def Term.texts : List Term → List String
  | [] => []
  | t :: ts => t.text :: Term.texts ts

def Term.fieldTexts : List (String × Term) → List String
  | [] => []
  | (k, t) :: fs => ("    \"" ++ k ++ "\": " ++ t.text ++ ",\n") :: Term.fieldTexts fs

end

def Literal.text : Literal → String
  | holds t => t.text
  | cmp op l r => l.text ++ " " ++ op.text ++ " " ++ r.text
  | mem l r => l.text ++ " in " ++ r.text
  | assign x t => x ++ " := " ++ t.text

/-! ## Evaluation -/

/-- Values in Rego's order, each once. -/
def insertSet (v : Json) : List Json → List Json
  | [] => [v]
  | w :: l =>
    match v.cmp w with
    | .lt => v :: w :: l
    | .eq => w :: l
    | .gt => w :: insertSet v l

def setOf (l : List Json) : List Json := l.foldr insertSet []

/-- Follow a path of keys. -/
def follow (v : Json) : List String → Outcome Json
  | [] => value v
  | k :: path =>
    match v.get? k with
    | some w => follow w path
    | none => undefined

abbrev Env := List (String × Json)

section
variable (sprintf : String → List Json → String) (input : Json) (doc : String → Outcome Json)

mutual

def Term.eval (env : Env) : Term → Outcome Json
  | .lit v => value v
  | .quoted s => value (.str s)
  | .input path => follow input path
  | .var x =>
    match env.lookup x with
    | some v => value v
    | none => undefined
  | .rule name => doc name
  | .array items => (Term.evals env items).bind fun l => value (.arr l)
  | .set items => (Term.evals env items).bind fun l => value (.arr (setOf l))
  | .object fields => (Term.evalFields env fields).bind fun l => value (.obj l)
  | .sprintf format args =>
    (format.eval env).bind fun f => (args.eval env).bind fun a =>
      match f, a with
      | .str f, .arr l => value (.str (sprintf f l))
      | _, _ => undefined

def Term.evals (env : Env) : List Term → Outcome (List Json)
  | [] => value []
  | t :: ts => (t.eval env).bind fun v => (Term.evals env ts).bind fun l => value (v :: l)

def Term.evalFields (env : Env) : List (String × Term) → Outcome (List (String × Json))
  | [] => value []
  | (k, t) :: fs =>
    (t.eval env).bind fun v => (Term.evalFields env fs).bind fun l => value ((k, v) :: l)

end

/-- The variables bound after a literal that succeeds. -/
def Literal.eval (env : Env) : Literal → Outcome Env
  | holds t =>
    (t.eval sprintf input doc env).bind fun v =>
      match v with
      | .bool false => undefined
      | _ => value env
  | cmp op l r =>
    (l.eval sprintf input doc env).bind fun v => (r.eval sprintf input doc env).bind fun w =>
      guard (op.holds (v.sortKeys.cmp w.sortKeys) = true) env
  | mem l r =>
    (l.eval sprintf input doc env).bind fun v => (r.eval sprintf input doc env).bind fun w =>
      match w with
      | .arr items => guard (items.any (fun i => v.sortKeys.cmp i.sortKeys == .eq) = true) env
      | _ => undefined
  | assign x t => (t.eval sprintf input doc env).bind fun v => value ((x, v) :: env)

/-- The variables bound after a whole body. -/
def evalBody (env : Env) : List Literal → Outcome Env
  | [] => value env
  | l :: body => (l.eval sprintf input doc env).bind fun env' => evalBody env' body

/-- The head of a rule whose body succeeds. -/
def Rule.eval : Rule → Outcome Json
  | .default _ _ => undefined
  | .complete _ t body | .partialSet _ t body =>
    (evalBody sprintf input doc [] body).bind fun env => t.eval sprintf input doc env

end

def Rule.name : Rule → String
  | .default name _ | .complete name _ _ | .partialSet name _ _ => name

def Rule.default? : Rule → Option Json
  | .default _ v => some v
  | _ => none

def Rule.isSet : Rule → Bool
  | .partialSet _ _ _ => true
  | _ => false

/-- The value of a complete rule, from the values of its definitions. -/
def agree (dflt : Option Json) : List Json → Outcome Json
  | [] =>
    match dflt with
    | some v => value v
    | none => undefined
  | v :: vs => if vs.all fun w => v.sortKeys.cmp w.sortKeys == .eq then value v else conflict

/-- The document of a rule name, following references to a depth. -/
def Module.document (m : Module) (sprintf : String → List Json → String) (input : Json) :
    Nat → String → Outcome Json
  | 0, _ => undefined
  | n + 1, name =>
    let rules := m.rules.filter fun r => r.name = name
    (collect (rules.map (Rule.eval sprintf input (m.document sprintf input n)))).bind fun vs =>
      if rules.any Rule.isSet then value (.arr (setOf vs))
      else agree (rules.findSome? Rule.default?) vs

/-- `data.<package>.<name>` on an input. -/
def Module.query (m : Module) (sprintf : String → List Json → String) (input : Json)
    (name : String) : Outcome Json :=
  m.document sprintf input m.rules.length name

/-! ## Bodies -/

section
variable {sprintf : String → List Json → String} {input : Json} {doc : String → Outcome Json}

theorem evalBody_append : ∀ (a b : List Literal) (env : Env),
    evalBody sprintf input doc env (a ++ b) =
      (evalBody sprintf input doc env a).bind fun env' => evalBody sprintf input doc env' b
  | [], _, _ => rfl
  | l :: a, b, env => by
    rw [List.cons_append]
    simp only [evalBody]
    cases l.eval sprintf input doc env with
    | conflict => rfl
    | undefined => rfl
    | value env' => exact evalBody_append a b env'

/-- References to rules that are true or undefined. -/
theorem evalBody_holds {ι : Type} {name : ι → String} {q : ι → Prop} [DecidablePred q] (env : Env) :
    ∀ {l : List ι}, (∀ i ∈ l, doc (name i) = guard (q i) (.bool true)) →
    evalBody sprintf input doc env (l.map fun i => .holds (.rule (name i))) =
      guard (∀ i ∈ l, q i) env
  | [], _ => by simp [evalBody]
  | i :: l, h => by
    rw [List.map_cons]
    simp only [evalBody, Literal.eval, Term.eval]
    rw [h i List.mem_cons_self]
    by_cases hi : q i
    · simp [hi, evalBody_holds env fun j hj => h j (List.mem_cons_of_mem _ hj)]
    · simp [hi]

/-- A comparison of a document with a number. -/
theorem eval_cmp_lit {op : CmpOp} {path : List String} {x c : Json} {p q : Rat} {env : Env}
    (hx : follow input path = value x) (hp : x.num? = some p) (hq : c.num? = some q)
    [Decidable (op.Rel p q)] :
    (Literal.cmp op (.input path) (.lit c)).eval sprintf input doc env =
      guard (op.Rel p q) env := by
  simp only [Literal.eval, Term.eval, hx, bind_value, Json.cmp_sortKeys_of_num hp hq]
  exact guard_congr (op.holds_compare p q) env

theorem eval_cmp_undefined {op : CmpOp} {path : List String} {t : Term} {env : Env}
    (hx : follow input path = undefined) :
    (Literal.cmp op (.input path) t).eval sprintf input doc env = undefined := by
  simp [Literal.eval, Term.eval, hx]

end

/-! ## Rules -/

/-- The definitions of a name, one rule at a time. -/
theorem filter_name_cons (name : String) (r : Rule) (rs : List Rule) :
    (r :: rs).filter (fun r => r.name = name) =
      (if r.name = name then [r] else []) ++ rs.filter fun r => r.name = name := by
  by_cases h : r.name = name <;> simp [h]

section
variable {m : Module} {sprintf : String → List Json → String} {input : Json} {n : Nat}
  {name : String}

/-- A complete rule with one definition and no default. -/
theorem document_complete {t : Term} {body : List Literal}
    (h : m.rules.filter (fun r => r.name = name) = [.complete name t body]) :
    m.document sprintf input (n + 1) name =
      (Rule.complete name t body).eval sprintf input (m.document sprintf input n) := by
  unfold Module.document
  simp only [h, List.map_cons, List.map_nil, List.any_cons, List.any_nil, Rule.isSet,
    List.findSome?_cons, List.findSome?_nil, Rule.default?]
  cases (Rule.complete name t body).eval sprintf input (m.document sprintf input n) <;>
    simp [collect, agree, Outcome.bind]

/-- A complete rule with one definition and a default. -/
theorem document_default {v : Json} {t : Term} {body : List Literal}
    (h : m.rules.filter (fun r => r.name = name) = [.default name v, .complete name t body]) :
    m.document sprintf input (n + 1) name =
      match (Rule.complete name t body).eval sprintf input (m.document sprintf input n) with
      | .undefined => value v
      | o => o := by
  unfold Module.document
  simp only [h, List.map_cons, List.map_nil, List.any_cons, List.any_nil, Rule.isSet,
    List.findSome?_cons, Rule.default?]
  cases (Rule.complete name t body).eval sprintf input (m.document sprintf input n) <;>
    simp [Rule.eval, collect, agree, Outcome.bind]

/-- A partial set. -/
theorem document_set {rules : List Rule} (h : m.rules.filter (fun r => r.name = name) = rules)
    (hset : ∃ r ∈ rules, r.isSet = true) :
    m.document sprintf input (n + 1) name =
      (collect (rules.map (Rule.eval sprintf input (m.document sprintf input n)))).bind fun vs =>
        value (.arr (setOf vs)) := by
  unfold Module.document
  simp only [h, List.any_eq_true.2 hset, if_true]

end

/-! ## Sets -/

theorem insertSet_ne_nil (v : Json) (l : List Json) : insertSet v l ≠ [] := by
  cases l with
  | nil => simp [insertSet]
  | cons w l =>
    unfold insertSet
    split <;> simp

theorem setOf_eq_nil_iff {l : List Json} : setOf l = [] ↔ l = [] := by
  cases l with
  | nil => simp [setOf]
  | cons v l => simpa [setOf] using insertSet_ne_nil v _

theorem mem_insertSet {v w : Json} : ∀ {l : List Json}, w ∈ insertSet v l → w = v ∨ w ∈ l
  | [], h => by simpa [insertSet] using h
  | u :: l, h => by
    unfold insertSet at h
    split at h
    · simpa using h
    · exact .inr h
    · rcases List.mem_cons.1 h with rfl | h
      · simp
      · rcases mem_insertSet h with rfl | h
        · exact .inl rfl
        · exact .inr (List.mem_cons_of_mem _ h)

theorem mem_setOf {w : Json} : ∀ {l : List Json}, w ∈ setOf l → w ∈ l
  | [], h => h
  | v :: l, h => by
    rcases mem_insertSet h with rfl | h
    · simp
    · exact List.mem_cons_of_mem _ (mem_setOf h)

theorem mem_insertSet_str {s t : String} : ∀ {l : List Json},
    Json.str s ∈ insertSet (.str t) l ↔ s = t ∨ Json.str s ∈ l
  | [] => by simp [insertSet]
  | u :: l => by
    unfold insertSet
    split
    · simp
    · rename_i h
      rw [Json.cmp_str_eq_iff.1 h]
      simp
    · simp [mem_insertSet_str, or_left_comm]

theorem mem_setOf_str {s : String} : ∀ {es : List String},
    Json.str s ∈ setOf (es.map .str) ↔ s ∈ es
  | [] => by simp [setOf]
  | e :: es => by
    have ih : Json.str s ∈ setOf (es.map .str) ↔ s ∈ es := mem_setOf_str
    rw [setOf] at ih
    simp [setOf, mem_insertSet_str, ih]

end Lib.Rego
