import Mathlib.Tactic.SplitIfs
import RuleWatch.Proofs.Condition.Literals
import RuleWatch.Proofs.Json.Numbers
import RuleWatch.Proofs.Rule.Identities
import RuleWatch.Proofs.Time.Timestamps
/-!
  JSON forms are read back. Every form is one that its text holds, so that only forms have to
  be compared. What is read for a condition is the condition with its literals read back,
  if it lies no deeper than there are levels left (`Condition.ofJson?_toJson`); the same holds
  of the values of fields. An identity and a time come back from their texts.

  A finite double is written with a point or an exponent and read in rounded steps. Whether
  these give the double back is asked of each double; that a double is read, and not an
  integer, holds of all (`json_read_back`).
-/

namespace RuleWatch

namespace Json

mutual

/-- How deep arrays and objects lie within each other. -/
def depth : Json → Nat
  | array items => itemsDepth items + 1
  | object members => membersDepth members + 1
  | _ => 0

def itemsDepth : List Json → Nat
  | [] => 0
  | item :: rest => max item.depth (itemsDepth rest)

def membersDepth : List (JsonString × Json) → Nat
  | [] => 0
  | (_, value) :: rest => max value.depth (membersDepth rest)

end

theorem count?_ofCount {n : Nat} (small : n < 2 ^ 64) : (ofCount n).count? = some n := by
  have digits : Numeral.ofInt n = ⟨false, Nat.toDigits 10 n, [], none⟩ := by
    rw [Numeral.ofInt, decide_eq_false (by omega), Int.natAbs_natCast]
  rw [ofCount, digits, count?, digitsValue_toDigits]
  exact if_pos small

theorem ofMembers_regular {members : List (String × Json)} (h : ∀ m ∈ members, m.2.Regular) :
    (ofMembers members).Regular := by
  refine .object ?_ ?_
  · intro m among
    obtain ⟨k, -, rfl⟩ := List.mem_map.1 among
    rfl
  · intro m among
    obtain ⟨k, listed, rfl⟩ := List.mem_map.1 among
    exact h k listed

theorem depth_ofMembers (members : List (String × Json)) :
    (ofMembers members).depth = (members.map fun m => m.2.depth).foldr max 0 + 1 := by
  rw [ofMembers, depth]
  congr 1
  induction members with
  | nil => rfl
  | cons m members ih => rw [List.map_cons, membersDepth, ih]; rfl

theorem depth_member (name : String) (content : Json) : (ofMembers [(name, content)]).depth = content.depth + 1 := by
  simp [depth_ofMembers]

theorem depth_pair (left right : Json) : (array [left, right]).depth = max left.depth right.depth + 1 := by
  simp [depth, itemsDepth]

end Json

/-! ## Values -/

namespace Value

/-- The value that is read for the JSON form of a value. -/
def reread? (v : Value) : Option Value := ofJson? v.toJson

/-- A double is finite. -/
def Finite : Value → Prop
  | float x => x.isFinite = true
  | _ => True

/-- A double is finite, and read back from its JSON number. -/
def Exact : Value → Prop
  | float x => x.isFinite = true ∧ (jsonLayout.numeral x).stepwise? = some x
  | _ => True

theorem Exact.finite {v : Value} (h : v.Exact) : v.Finite := by
  cases v with
  | float x => exact h.1
  | _ => trivial

theorem equals_self {v : Value} (finite : v.Finite) : v.equals v = true := by
  cases v with
  | float x => exact Binary64.equals_self finite
  | _ => simp [equals]

theorem toJson_regular (v : Value) : v.toJson.Regular := by
  cases v with
  | bool b => exact .bool b
  | int i => exact .number (Numeral.ofInt_regular i.toInt)
  | float x =>
    rw [toJson]
    split_ifs with finite
    · exact .number (jsonLayout_regular finite)
    · exact .null
  | string s => exact .string s

theorem depth_toJson (v : Value) : v.toJson.depth = 0 := by
  cases v with
  | float x =>
    rw [toJson]
    split_ifs <;> rfl
  | _ => rfl

theorem reread?_float {x : Binary64} (finite : x.isFinite = true) :
    (float x).reread? = (jsonLayout.numeral x).stepwise?.map float := by
  rw [reread?, toJson, if_pos finite, ofJson?, ofNumeral?_double]

theorem reread?_of_exact {v : Value} (exact_ : v.Exact) : v.reread? = some v := by
  cases v with
  | bool b => rfl
  | int i => exact ofNumeral?_int i
  | float x => rw [reread?_float exact_.1, exact_.2]; rfl
  | string s => rfl

/-- Of whatever kind a value is, what is read back is of that kind. -/
theorem kind_of_reread? {v w : Value} (finite : v.Finite) (read : v.reread? = some w) : w.kind = v.kind := by
  have same (exact_ : v.Exact) : w = v := Option.some.inj (read.symm.trans (reread?_of_exact exact_))
  cases v with
  | float x =>
    rw [reread?_float finite] at read
    obtain ⟨y, -, rfl⟩ := Option.map_eq_some_iff.1 read
    rfl
  | bool b => rw [same trivial]
  | int i => rw [same trivial]
  | string s => rw [same trivial]

end Value

/-! ## Conditions -/

namespace Condition

theorem toJson_regular (c : Condition) : c.toJson.Regular := by
  have member (kind : String) {content : Json} (h : content.Regular) : (Json.ofMembers [(kind, content)]).Regular :=
    Json.ofMembers_regular (by simpa using h)
  have pair {left right : Json} (hl : left.Regular) (hr : right.Regular) : (Json.array [left, right]).Regular :=
    .array (by simpa using ⟨hl, hr⟩)
  induction c with
  | const outcome => exact member "Const" (.bool outcome)
  | compare field op literal =>
    refine member "Compare" (Json.ofMembers_regular ?_)
    simpa using ⟨.string field, .string op.jsonName, literal.toJson_regular⟩
  | truthy field => exact member "Truthy" (.string field)
  | and left right hl hr => exact member "And" (pair hl hr)
  | or left right hl hr => exact member "Or" (pair hl hr)
  | not inner ih => exact member "Not" ih

/-! Of the levels that are left, each kind of condition takes one or two. -/

section
variable (levels : Nat) (content left right : Json)

theorem ofJson?_zero (members : List (String × Json)) : ofJson? 0 (.ofMembers members) = none := by
  rw [ofJson?.eq_def]

theorem ofJson?_const :
    ofJson? (levels + 1) (.ofMembers [("Const", content)]) = content.bool?.map const := by
  rw [ofJson?.eq_def]
  rfl

theorem ofJson?_truthy :
    ofJson? (levels + 1) (.ofMembers [("Truthy", content)]) = content.text?.map truthy := by
  rw [ofJson?.eq_def]
  rfl

theorem ofJson?_not :
    ofJson? (levels + 1) (.ofMembers [("Not", content)]) = (ofJson? levels content).map not := by
  rw [ofJson?.eq_def]
  rfl

theorem ofJson?_one {kind : String} (h : kind ∈ ["Compare", "And", "Or"]) :
    ofJson? 1 (.ofMembers [(kind, content)]) = none := by
  rw [ofJson?.eq_def]
  simp only [List.mem_cons, List.not_mem_nil, or_false] at h
  rcases h with rfl | rfl | rfl <;> rfl

theorem ofJson?_compare : ofJson? (levels + 2) (.ofMembers [("Compare", content)]) =
    (content.parts? ["field", "op", "value"]).bind (ofParts? levels) := by
  rw [ofJson?.eq_def]
  rfl

theorem ofJson?_and : ofJson? (levels + 2) (.ofMembers [("And", .array [left, right])]) =
    joined and (ofJson? levels left) (ofJson? levels right) := by
  rw [ofJson?.eq_def]
  rfl

theorem ofJson?_or : ofJson? (levels + 2) (.ofMembers [("Or", .array [left, right])]) =
    joined or (ofJson? levels left) (ofJson? levels right) := by
  rw [ofJson?.eq_def]
  rfl

end

theorem ofJsonName?_jsonName (op : Comparison) : Comparison.ofJsonName? op.jsonName = some op := by
  cases op <;> rfl

theorem ofParts?_toJson (levels : Nat) (field : String) (op : Comparison) (literal : Value) :
    ofParts? levels [.string (some field), op.toJson, literal.toJson] = literal.reread?.map (compare field op) := by
  have operator : Comparison.ofJson? levels op.toJson = some op := by
    rw [Comparison.toJson, Comparison.ofJson?, ofJsonName?_jsonName]
  simp only [ofParts?, operator, Json.text?, Value.reread?]
  cases Value.ofJson? literal.toJson <;> rfl

/-- Two conditions within another have levels enough if the deeper one has. -/
theorem joined_levels (join : Condition → Condition → Condition) (a b : Option Condition) (l r levels : Nat) :
    joined join (if l ≤ levels then a else none) (if r ≤ levels then b else none) =
      if max l r + 1 + 1 ≤ levels + 2 then joined join a b else none := by
  have both : max l r + 1 + 1 ≤ levels + 2 ↔ l ≤ levels ∧ r ≤ levels := by omega
  simp only [both]
  by_cases hl : l ≤ levels
  · by_cases hr : r ≤ levels
    · simp [hl, hr]
    · cases a <;> simp [hl, hr, joined]
  · simp [hl, joined]

/-- A pair of conditions under one name is read as its two parts are. -/
theorem ofJson?_pair {kind : String} {join : Condition → Condition → Condition} {left right : Json}
    {a b : Option Condition} (known : kind ∈ ["Compare", "And", "Or"])
    (read : ∀ levels, ofJson? (levels + 2) (.ofMembers [(kind, .array [left, right])]) =
      joined join (ofJson? levels left) (ofJson? levels right))
    (ihl : ∀ levels, ofJson? levels left = if left.depth ≤ levels then a else none)
    (ihr : ∀ levels, ofJson? levels right = if right.depth ≤ levels then b else none) (levels : Nat) :
    ofJson? levels (.ofMembers [(kind, .array [left, right])]) =
      if (Json.ofMembers [(kind, .array [left, right])]).depth ≤ levels then joined join a b else none := by
  rw [Json.depth_member, Json.depth_pair]
  obtain _ | _ | levels := levels
  · exact ofJson?_zero _
  · exact ofJson?_one _ known
  · rw [read, ihl, ihr]
    exact joined_levels join _ _ _ _ levels

/-- What is read back of a condition is the condition with its literals read back, if
there are levels enough. -/
theorem ofJson?_toJson (levels : Nat) (c : Condition) :
    ofJson? levels c.toJson = if c.toJson.depth ≤ levels then c.traverse Value.reread? else none := by
  induction c generalizing levels with
  | const outcome =>
    rw [toJson, Json.depth_member]
    cases levels with
    | zero => exact ofJson?_zero _
    | succ levels => simp [ofJson?_const, traverse, Json.bool?, Json.depth]
  | truthy field =>
    rw [toJson, Json.depth_member]
    cases levels with
    | zero => exact ofJson?_zero _
    | succ levels => simp [ofJson?_truthy, traverse, Json.text?, Json.depth]
  | compare field op literal =>
    have flat : literal.toJson.depth = 0 := literal.depth_toJson
    have named : op.toJson.depth = 0 := rfl
    rw [toJson, Json.depth_member, Json.depth_ofMembers]
    obtain _ | _ | levels := levels
    · exact ofJson?_zero _
    · exact ofJson?_one _ (by decide)
    · rw [ofJson?_compare]
      simp [Json.parts?, Json.theMember?, Json.ofMembers, ofParts?_toJson, traverse, flat, named, Json.depth]
  | and left right ihl ihr => exact ofJson?_pair (by decide) (ofJson?_and · _ _) ihl ihr levels
  | or left right ihl ihr => exact ofJson?_pair (by decide) (ofJson?_or · _ _) ihl ihr levels
  | not inner ih =>
    rw [toJson, Json.depth_member]
    cases levels with
    | zero => exact ofJson?_zero _
    | succ levels =>
      rw [ofJson?_not, ih, traverse]
      simp only [Nat.add_le_add_iff_right]
      split_ifs <;> rfl

end Condition

/-! ## Fields and actions -/

namespace Fields

theorem toJson_regular (f : Fields) : f.toJson.Regular := by
  refine Json.ofMembers_regular ?_
  intro m among
  obtain ⟨p, -, rfl⟩ := List.mem_map.1 among
  exact p.2.toJson_regular

theorem ofList_toList (f : Fields) : Std.ExtTreeMap.ofList f.toList = f := by
  apply Std.ExtTreeMap.ext_getElem?
  intro name
  cases found : f[name]? with
  | some v =>
    have listed : (name, v) ∈ f.toList := Std.ExtTreeMap.mem_toList_iff_getElem?_eq_some.2 found
    exact Std.ExtTreeMap.getElem?_ofList_of_mem Std.ReflCmp.compare_self Std.ExtTreeMap.distinct_keys_toList listed
  | none =>
    have missing : (f.toList.map Prod.fst).contains name = false := by
      rw [Std.ExtTreeMap.map_fst_toList_eq_keys, Std.ExtTreeMap.contains_keys,
        ← Std.ExtTreeMap.isSome_getElem?_eq_contains, found]
      rfl
    exact Std.ExtTreeMap.getElem?_ofList_of_contains_eq_false missing

/-- The entries of fields, each with what is read back of its value. -/
def rereadEntries? (entries : List (String × Value)) : Option (List (String × Value)) :=
  entries.mapM fun p => p.2.reread?.map fun v => (p.1, v)

theorem ofJson?_eq (f : Fields) : ofJson? f.toJson = (rereadEntries? f.toList).map (Std.ExtTreeMap.ofList ·) := by
  have entry : (fun p : String × Value => (do return (← some p.1, ← Value.ofJson? p.2.toJson) : Option (String × Value))) =
      fun p => p.2.reread?.map fun v => (p.1, v) := by
    funext p
    rw [Value.reread?]
    cases Value.ofJson? p.2.toJson <;> rfl
  rw [toJson, Json.ofMembers, ofJson?, List.mapM_map, List.mapM_map, rereadEntries?, ← entry, Option.map_eq_bind]
  rfl

theorem rereadEntries?_eq_some {back : Value → Value} {entries : List (String × Value)}
    (reads : ∀ p ∈ entries, p.2.reread? = some (back p.2)) :
    rereadEntries? entries = some (entries.map fun p => (p.1, back p.2)) := by
  induction entries with
  | nil => rfl
  | cons p entries ih =>
    have others := ih fun q hq => reads q (by simp [hq])
    rw [rereadEntries?] at others ⊢
    simp [reads p (by simp), others]

theorem isSome_of_rereadEntries? {entries read : List (String × Value)} (h : rereadEntries? entries = some read) :
    ∀ p ∈ entries, p.2.reread?.isSome = true := by
  induction entries generalizing read with
  | nil => simp
  | cons p entries ih =>
    simp only [rereadEntries?, List.mapM_cons, Option.bind_eq_bind, Option.bind_eq_some_iff, Option.map_eq_some_iff,
      Option.pure_def, Option.some.injEq] at h
    obtain ⟨q, ⟨v, back, rfl⟩, rest, others, rfl⟩ := h
    intro k among
    rcases List.mem_cons.1 among with rfl | among
    · rw [back]
      rfl
    · exact ih others k among

/-- Under every name stands what is read back of the value there. -/
theorem ofJson?_toJson {f : Fields} (back : Value → Value)
    (reads : ∀ (name : String) v, f[name]? = some v → v.reread? = some (back v)) :
    ofJson? f.toJson = some (f.map fun _ v => back v) := by
  have entries : rereadEntries? f.toList = some (f.map fun _ v => back v).toList := by
    rw [Std.ExtTreeMap.toList_map]
    apply rereadEntries?_eq_some
    intro p among
    exact reads p.1 p.2 (Std.ExtTreeMap.mem_toList_iff_getElem?_eq_some.1 among)
  rw [ofJson?_eq, entries, Option.map_some, ofList_toList]

theorem ofJson?_of_exact {f : Fields} (h : ∀ (name : String) v, f[name]? = some v → v.Exact) :
    ofJson? f.toJson = some f := by
  have same : (f.map fun _ v => v) = f := by
    apply Std.ExtTreeMap.ext_getElem?
    intro name
    rw [Std.ExtTreeMap.getElem?_map, Option.map_id']
  have read := ofJson?_toJson (fun v => v) fun name v found => Value.reread?_of_exact (h name v found)
  rw [read, same]

/-- Under every name stands a value of the kind that it was read for. -/
theorem kinds_of_ofJson? {f g : Fields} (finite : ∀ (name : String) v, f[name]? = some v → v.Finite)
    (read : ofJson? f.toJson = some g) (name : String) :
    g[name]?.map Value.kind = f[name]?.map Value.kind := by
  have each (name : String) (v : Value) (found : f[name]? = some v) : v.reread? = some (v.reread?.getD v) := by
    rw [ofJson?_eq, Option.map_eq_some_iff] at read
    obtain ⟨entries, back, -⟩ := read
    have some := isSome_of_rereadEntries? back (name, v) (Std.ExtTreeMap.mem_toList_iff_getElem?_eq_some.2 found)
    obtain ⟨w, same⟩ := Option.isSome_iff_exists.1 some
    rw [same]
    rfl
  have whole := ofJson?_toJson (fun v => v.reread?.getD v) each
  rw [read, Option.some.injEq] at whole
  rw [whole, Std.ExtTreeMap.getElem?_map, Option.map_map]
  cases found : f[name]? with
  | none => rfl
  | some v => exact congrArg some (Value.kind_of_reread? (finite name v found) (each name v found))

end Fields

namespace Action

theorem toJson_regular (a : Action) : a.toJson.Regular := by
  refine Json.ofMembers_regular ?_
  simpa using ⟨.string a.name, .number (Numeral.ofInt_regular a.threshold), Fields.toJson_regular a.params⟩

theorem parts?_toJson (a : Action) : a.toJson.parts? ["name", "consecutive_hits", "params"] =
    some [.string (some a.name), .ofCount a.threshold, Fields.toJson a.params] := by
  simp [toJson, Json.parts?, Json.theMember?, Json.ofMembers]

theorem ofJson?_toJson {a : Action} (small : a.threshold < 2 ^ 64)
    (h : ∀ (name : String) v, a.params[name]? = some v → v.Exact) : ofJson? a.toJson = some a := by
  have read_threshold := Json.count?_ofCount small
  have read_params := Fields.ofJson?_of_exact h
  rw [ofJson?, parts?_toJson]
  simp only [Option.bind_eq_bind, Option.bind_some, Json.text?, read_threshold, read_params]
  rfl

theorem params_of_ofJson? {a b : Action} (read : ofJson? a.toJson = some b) :
    Fields.ofJson? (Fields.toJson a.params) = some b.params := by
  rw [ofJson?, parts?_toJson] at read
  simp only [Option.bind_eq_bind, Option.bind_some, Json.text?, Option.pure_def, Option.bind_eq_some_iff,
    Option.some.injEq] at read
  obtain ⟨threshold, -, params, read, rfl⟩ := read
  exact read

end Action

theorem RuleId.ofJson?_toJson (i : RuleId) : ofJson? i.toJson = some i := by
  rw [ofJson?, toJson, Json.text?, Option.bind_some, ofText?_grouped]

namespace Record

theorem toJson_regular (r : Record) : r.toJson.Regular := by
  refine Json.ofMembers_regular ?_
  simpa using ⟨.string _, .bool r.result, .string _, .number (Numeral.ofInt_regular r.sequence)⟩

theorem ofJson?_toJson {r : Record} (small : r.sequence < 2 ^ 64) (valid : r.time.Valid) :
    ofJson? r.toJson = some r := by
  have parts : r.toJson.parts? ["rule", "result", "timestamp", "sequence"] =
      some [r.rule.toJson, .bool r.result, .string (some (Timestamp.text r.time)), .ofCount r.sequence] := by
    simp [toJson, Json.parts?, Json.theMember?, Json.ofMembers]
  have read_rule := r.rule.ofJson?_toJson
  have read_time := Timestamp.ofText?_text valid
  have read_sequence := Json.count?_ofCount small
  rw [ofJson?, parts]
  simp only [Option.bind_eq_bind, Option.bind_some, read_rule, Json.bool?, Json.text?, read_time, read_sequence]
  rfl

end Record

/-! ## Texts -/

/-- What a JSON text is read as, given how the value in it is. -/
def Json.read? {α : Type} (ofForm? : Json → Option α) (text : String) : Option α := (ofText? text).bind ofForm?

theorem Json.read?_text {α : Type} (ofForm? : Json → Option α) {j : Json} (regular : j.Regular) :
    read? ofForm? j.text = ofForm? j := by
  rw [read?, ofText?_text regular, Option.bind_some]

/-- The condition that a JSON text holds. -/
def Condition.ofText? : String → Option Condition := Json.read? (ofJson? Json.maxDepth)

/-- **JSON texts are read back.** Conditions come back from their JSON texts, if these lie
no deeper than may be read, and actions and records always; their doubles have to be
finite, and such that their numbers are read as the same doubles. Of whatever
finite double, a value comes back as a value of the same kind. -/
theorem json_read_back :
    (∀ c : Condition, (∀ v ∈ c.literals, v.Exact) →
      (Condition.ofText? c.toJson.text = if c.toJson.depth ≤ Json.maxDepth then some c else none) ∧
        c.equals c = true) ∧
    (∀ a : Action, a.threshold < 2 ^ 64 → (∀ (name : String) v, a.params[name]? = some v → v.Exact) →
      Json.read? Action.ofJson? a.toJson.text = some a ∧
        ∀ (name : String) v, a.params[name]? = some v → v.equals v = true) ∧
    (∀ r : Record, r.sequence < 2 ^ 64 → r.time.Valid → Json.read? Record.ofJson? r.toJson.text = some r) ∧
    (∀ c d : Condition, (∀ v ∈ c.literals, v.Finite) → Condition.ofText? c.toJson.text = some d →
      d.literals.map Value.kind = c.literals.map Value.kind) ∧
    (∀ a b : Action, (∀ (name : String) v, a.params[name]? = some v → v.Finite) →
      Json.read? Action.ofJson? a.toJson.text = some b →
      ∀ name : String, b.params[name]?.map Value.kind = a.params[name]?.map Value.kind) ∧
    ∀ v w : Value, v.Finite → Json.read? Value.ofJson? v.toJson.text = some w → w.kind = v.kind := by
  refine ⟨?_, ?_, ?_, ?_, ?_, ?_⟩
  · intro c exact_
    rw [Condition.ofText?, Json.read?_text _ c.toJson_regular, Condition.ofJson?_toJson,
      Condition.traverse_eq_self fun v hv => Value.reread?_of_exact (exact_ v hv)]
    exact ⟨rfl, Condition.equals_self fun v hv => Value.equals_self (exact_ v hv).finite⟩
  · intro a small exact_
    rw [Json.read?_text _ a.toJson_regular, Action.ofJson?_toJson small exact_]
    exact ⟨rfl, fun name v found => Value.equals_self (exact_ name v found).finite⟩
  · intro r small valid
    rw [Json.read?_text _ r.toJson_regular, Record.ofJson?_toJson small valid]
  · intro c d finite read
    rw [Condition.ofText?, Json.read?_text _ c.toJson_regular, Condition.ofJson?_toJson,
      Option.ite_none_right_eq_some] at read
    exact Condition.map_literals (fun v hv _ => Value.kind_of_reread? (finite v hv)) read.2
  · intro a b finite read
    rw [Json.read?_text _ a.toJson_regular] at read
    exact Fields.kinds_of_ofJson? finite (Action.params_of_ofJson? read)
  · intro v w finite read
    rw [Json.read?_text _ v.toJson_regular] at read
    exact Value.kind_of_reread? finite read

namespace Condition

/-- A condition under some negations. -/
def negated : Nat → Condition → Condition
  | 0, c => c
  | n + 1, c => not (negated n c)

theorem literals_negated (n : Nat) (c : Condition) : (c.negated n).literals = c.literals := by
  induction n with
  | zero => rfl
  | succ n ih => exact ih

theorem depth_negated (n : Nat) (c : Condition) : (c.negated n).toJson.depth = c.toJson.depth + n := by
  induction n with
  | zero => rfl
  | succ n ih => rw [negated, toJson, Json.depth_member, ih, Nat.add_assoc]

end Condition

/-- Under so many negations a constant is written, but it is not read back. -/
theorem json_read_back_too_deep :
    (∀ v ∈ (Condition.negated 127 (.const true)).literals, v.Exact) ∧
      Condition.ofText? (Condition.negated 127 (.const true)).toJson.text = none := by
  have depth : (Condition.negated 127 (.const true)).toJson.depth = 128 := Condition.depth_negated 127 (.const true)
  refine ⟨?_, ?_⟩
  · rw [Condition.literals_negated]
    simp [Condition.literals]
  · rw [Condition.ofText?, Json.read?_text _ (Condition.toJson_regular _), Condition.ofJson?_toJson, depth]
    rfl

/-- An integer, a double and a string that are written with the same digit, a parameter that
looks like a truth value, and a record of a leap second. -/
theorem json_read_back_lookalikes :
    Condition.ofText? (Condition.and (.compare "i" .equal (.int 7)) (.not (.or
      (.compare "x" .less (.float ⟨0x401c000000000000⟩)) (.compare "s" .equal (.string "7"))))).toJson.text =
      some (Condition.and (.compare "i" .equal (.int 7)) (.not (.or
        (.compare "x" .less (.float ⟨0x401c000000000000⟩)) (.compare "s" .equal (.string "7"))))) ∧
    Json.read? Action.ofJson? (Action.ofParams "notify" 3 [("urgent", .string "true")]).toJson.text =
      some (Action.ofParams "notify" 3 [("urgent", .string "true")]) ∧
    Json.read? Record.ofJson? (Record.mk (.ofNat 5) true ⟨1483228799, 1500000000⟩ 12).toJson.text =
      some (Record.mk (.ofNat 5) true ⟨1483228799, 1500000000⟩ 12) := by
  have seven : (Value.float ⟨0x401c000000000000⟩).Exact := ⟨by decide, by decide +kernel⟩
  refine ⟨(json_read_back.1 _ ?_).1.trans (if_pos ?_), (json_read_back.2.1 _ ?_ ?_).1, json_read_back.2.2.1 _ ?_ ?_⟩
  · intro v among
    simp only [Condition.literals, List.singleton_append, List.mem_cons, List.not_mem_nil, or_false] at among
    rcases among with rfl | rfl | rfl
    · trivial
    · exact seven
    · trivial
  · decide
  · decide
  · intro name v found
    rw [Action.ofParams, Std.ExtTreeMap.ofList_singleton, Std.ExtTreeMap.getElem?_insert] at found
    split_ifs at found
    · cases found
      trivial
    · simp at found
  · decide
  · exact ⟨by decide, by decide⟩

end RuleWatch
