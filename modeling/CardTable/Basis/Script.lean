import CardTable.Basis.Bytes
import Mathlib.Tactic.Common

/-!
# Script — the bytes of a Bitcoin script and its branches

A script is a string of bytes. A byte up to 75 pushes that many of the
bytes behind it, the bytes 76, 77 and 78 push as many as a length of one,
two or four bytes says, and every other byte is an opcode (`parse`).

`IF`, `ELSE` and `ENDIF` nest. `execute` walks them the way an
interpreter does, with a stack of conditions, and says which of the other
items are executed and at which positions. `Branching` is the shape of a
script that is nothing but nested alternatives; `execute` on it takes the
path of the selectors it is given, and every leaf has one path.
-/

namespace Basis.Script

/-! ## Items -/

/-- An element of a script. -/
inductive Item where
  /-- an opcode, one of those that push a small number included -/
  | op (code : UInt8)
  /-- data pushed by its length -/
  | push (data : List UInt8)
  deriving DecidableEq, Repr

/-- The data behind a length of `width` bytes. -/
def takeCounted (width : Nat) (rest : List UInt8) : Option (Item × List UInt8) :=
  let size := uintLE (rest.take width)
  if width ≤ rest.length ∧ size ≤ (rest.drop width).length then
    some (.push ((rest.drop width).take size), (rest.drop width).drop size)
  else none

/-- The first item of a script and what is behind it. -/
def nextItem (code : UInt8) (rest : List UInt8) : Option (Item × List UInt8) :=
  if code ≤ 75 then
    if code.toNat ≤ rest.length then
      some (.push (rest.take code.toNat), rest.drop code.toNat)
    else none
  else if code = 76 then takeCounted 1 rest
  else if code = 77 then takeCounted 2 rest
  else if code = 78 then takeCounted 4 rest
  else some (.op code, rest)

/-- The items of a script, at most `fuel` of them. -/
def parseWith : Nat → List UInt8 → Option (List Item)
  | _, [] => some []
  | 0, _ :: _ => none
  | fuel + 1, code :: rest =>
      match nextItem code rest with
      | none => none
      | some (item, rest) => (parseWith fuel rest).map (item :: ·)

/-- The items of a script; `none` when a push is cut off. -/
def parse (bytes : List UInt8) : Option (List Item) := parseWith bytes.length bytes

theorem takeCounted_length {width : Nat} {rest rest' : List UInt8} {item : Item}
    (h : takeCounted width rest = some (item, rest')) : rest'.length ≤ rest.length := by
  simp only [takeCounted] at h
  split at h
  · cases h
    simp only [List.length_drop]
    omega
  · cases h

/-- Reading an item uses up its code at least. -/
theorem nextItem_length {code : UInt8} {rest rest' : List UInt8} {item : Item}
    (h : nextItem code rest = some (item, rest')) : rest'.length ≤ rest.length := by
  simp only [nextItem] at h
  split at h
  · split at h
    · cases h
      simp
    · cases h
  · split at h
    · exact takeCounted_length h
    · split at h
      · exact takeCounted_length h
      · split at h
        · exact takeCounted_length h
        · cases h
          exact Nat.le_refl _

/-- Enough fuel is enough. -/
theorem parseWith_eq {n m : Nat} {bytes : List UInt8} (hn : bytes.length ≤ n)
    (hm : bytes.length ≤ m) : parseWith n bytes = parseWith m bytes := by
  induction n generalizing m bytes with
  | zero =>
      obtain rfl := List.length_eq_zero_iff.mp (Nat.le_zero.mp hn)
      simp [parseWith]
  | succ n ih =>
      cases bytes with
      | nil => simp [parseWith]
      | cons code rest =>
          cases m with
          | zero => simp at hm
          | succ m =>
              simp only [parseWith]
              cases hnext : nextItem code rest with
              | none => rfl
              | some next =>
                  have := nextItem_length hnext
                  simp only [List.length_cons] at hn hm
                  dsimp only
                  rw [ih (m := m) (by omega) (by omega)]

@[simp] theorem parse_nil : parse [] = some [] := rfl

/-- One step of the parser. -/
theorem parse_cons (code : UInt8) (rest : List UInt8) :
    parse (code :: rest) = match nextItem code rest with
      | none => none
      | some (item, rest) => (parse rest).map (item :: ·) := by
  simp only [parse, List.length_cons, parseWith]
  cases hnext : nextItem code rest with
  | none => rfl
  | some next =>
      dsimp only
      rw [parseWith_eq (nextItem_length hnext) (Nat.le_refl _)]

/-! ## Bytes that stand for items -/

/-- The bytes are read as the items, whatever comes behind them. -/
def Codes (bytes : List UInt8) (items : List Item) : Prop :=
  ∀ rest, parse (bytes ++ rest) = (parse rest).map (items ++ ·)

namespace Codes

variable {xs ys : List UInt8} {is js : List Item}

theorem nil : Codes [] [] := by
  intro rest
  simp

theorem append (hx : Codes xs is) (hy : Codes ys js) : Codes (xs ++ ys) (is ++ js) := by
  intro rest
  rw [List.append_assoc, hx, hy, Option.map_map]
  congr 1
  funext items
  exact (List.append_assoc is js items).symm

theorem parse_eq (h : Codes xs is) : parse xs = some is := by
  have := h []
  simpa using this

/-- A byte above the pushes. -/
theorem opcode {code : UInt8} (h : 78 < code) : Codes [code] [.op code] := by
  intro rest
  have hsmall : ¬code ≤ 75 := by
    rw [UInt8.le_iff_toNat_le]
    rw [UInt8.lt_iff_toNat_lt] at h
    have h78 : (78 : UInt8).toNat = 78 := rfl
    have h75 : (75 : UInt8).toNat = 75 := rfl
    omega
  have hne : code ≠ 76 ∧ code ≠ 77 ∧ code ≠ 78 := by
    refine ⟨?_, ?_, ?_⟩
    all_goals
      rintro rfl
      exact absurd h (by decide)
  rw [List.singleton_append, parse_cons, nextItem, if_neg hsmall, if_neg hne.1, if_neg hne.2.1,
    if_neg hne.2.2]
  rfl

/-- Data behind its length in one byte. -/
theorem direct {data : List UInt8} (h : data.length ≤ 75) :
    Codes (UInt8.ofNat data.length :: data) [.push data] := by
  intro rest
  have hval : (UInt8.ofNat data.length).toNat = data.length := by
    rw [UInt8.toNat_ofNat']
    omega
  have hsmall : UInt8.ofNat data.length ≤ 75 := by
    rw [UInt8.le_iff_toNat_le, hval]
    exact h
  have hfits : data.length ≤ (data ++ rest).length := by simp
  rw [List.cons_append, parse_cons, nextItem, if_pos hsmall, hval, if_pos hfits,
    List.take_left, List.drop_left]
  rfl

/-- Data behind a length of `width` bytes. -/
theorem counted {width : Nat} {code : UInt8} {size data : List UInt8}
    (hcode : ∀ rest, nextItem code rest = takeCounted width rest) (hsize : size.length = width)
    (hval : uintLE size = data.length) : Codes (code :: size ++ data) [.push data] := by
  intro rest
  have htake : (size ++ (data ++ rest)).take width = size := by rw [← hsize, List.take_left]
  have hdrop : (size ++ (data ++ rest)).drop width = data ++ rest := by
    rw [← hsize, List.drop_left]
  have hfits : width ≤ (size ++ (data ++ rest)).length ∧
      data.length ≤ (data ++ rest).length := by
    simp only [List.length_append]
    omega
  rw [List.cons_append, List.cons_append, parse_cons, hcode, List.append_assoc, takeCounted]
  simp only [htake, hdrop, hval]
  rw [if_pos hfits, List.take_left, List.drop_left]
  rfl

end Codes

/-! ## What is pushed -/

/-- The data an item pushes; the opcodes of the small numbers push one
byte. -/
def Item.pushes? : Item → Option (List UInt8)
  | .push data => some data
  | .op code =>
      if code = 0x4f then some [0x81]
      else if 0x51 ≤ code ∧ code ≤ 0x60 then some [code - 0x50]
      else none

/-- The bytes it takes to push so many bytes by their length. -/
def pushLength (size : Nat) : Nat :=
  if size ≤ 75 then 1 + size
  else if size ≤ 255 then 2 + size
  else if size ≤ 65535 then 3 + size
  else 5 + size

/-- A script of one item is a code and the rest of the item. -/
theorem nextItem_of_parse {bytes : List UInt8} {item : Item} (h : parse bytes = some [item]) :
    ∃ code rest, bytes = code :: rest ∧ nextItem code rest = some (item, []) := by
  cases bytes with
  | nil => cases h
  | cons code rest =>
      rw [parse_cons] at h
      cases hnext : nextItem code rest with
      | none =>
          rw [hnext] at h
          cases h
      | some next =>
          obtain ⟨first, behind⟩ := next
          rw [hnext] at h
          obtain ⟨items, hitems, hcons⟩ := Option.map_eq_some_iff.mp h
          obtain ⟨rfl, rfl⟩ := List.cons.inj hcons
          cases behind with
          | nil => exact ⟨code, rest, rfl, hnext⟩
          | cons c cs =>
              -- an item behind the only one
              rw [parse_cons] at hitems
              cases hmore : nextItem c cs with
              | none =>
                  rw [hmore] at hitems
                  cases hitems
              | some more =>
                  rw [hmore] at hitems
                  obtain ⟨_, _, hnil⟩ := Option.map_eq_some_iff.mp hitems
                  cases hnil

/-- Counted data are as many as the length in front of them says. -/
theorem takeCounted_push {width : Nat} {rest data : List UInt8}
    (h : takeCounted width rest = some (.push data, [])) :
    data.length < 256 ^ width ∧ rest.length = width + data.length := by
  simp only [takeCounted] at h
  split at h
  · rename_i hfits
    simp only [Option.some.injEq, Prod.mk.injEq, Item.push.injEq] at h
    obtain ⟨rfl, hnil⟩ := h
    have hsize := uintLE_lt (rest.take width)
    have htake : (rest.take width).length = width := by
      rw [List.length_take]
      omega
    have hdrop := congrArg List.length hnil
    simp only [List.length_drop, List.length_nil] at hdrop
    rw [htake] at hsize
    rw [List.length_take, List.length_drop]
    rw [List.length_drop] at hfits
    omega
  · cases h

/-- **No push by length is shorter**: every script that pushes the data
by their length is at least as long as the shortest form. -/
theorem pushLength_le {bytes data : List UInt8} (h : parse bytes = some [.push data]) :
    pushLength data.length ≤ bytes.length := by
  obtain ⟨code, rest, rfl, hnext⟩ := nextItem_of_parse h
  rw [List.length_cons]
  unfold pushLength
  simp only [nextItem] at hnext
  split at hnext
  · rename_i hdirect
    rw [UInt8.le_iff_toNat_le, show (75 : UInt8).toNat = 75 from rfl] at hdirect
    split at hnext
    · rename_i hfits
      simp only [Option.some.injEq, Prod.mk.injEq, Item.push.injEq] at hnext
      obtain ⟨rfl, hnil⟩ := hnext
      have hdrop := congrArg List.length hnil
      simp only [List.length_drop, List.length_nil] at hdrop
      rw [List.length_take, if_pos (by omega)]
      omega
    · cases hnext
  · split at hnext
    · obtain ⟨hsize, hlen⟩ := takeCounted_push hnext
      have hwidth : (256 : Nat) ^ 1 = 256 := rfl
      split
      · omega
      · rw [if_pos (by omega)]
        omega
    · split at hnext
      · obtain ⟨hsize, hlen⟩ := takeCounted_push hnext
        have hwidth : (256 : Nat) ^ 2 = 65536 := rfl
        split
        · omega
        · split
          · omega
          · rw [if_pos (by omega)]
            omega
      · split at hnext
        · obtain ⟨_, hlen⟩ := takeCounted_push hnext
          repeat' split
          all_goals omega
        · cases hnext

/-! ## The shortest bytes -/

/-- The bytes of an item, data pushed by its length in one byte. -/
def Item.bytes : Item → List UInt8
  | .op code => [code]
  | .push data => UInt8.ofNat data.length :: data

/-- The items these bytes stand for: opcodes above the pushes, and data
one byte can count. -/
def Item.Short : Item → Prop
  | .op code => 78 < code
  | .push data => data.length ≤ 75

/-- The bytes of a script. -/
def write (items : List Item) : List UInt8 := items.flatMap Item.bytes

@[simp] theorem write_nil : write [] = [] := rfl

@[simp] theorem write_cons (item : Item) (items : List Item) :
    write (item :: items) = item.bytes ++ write items := rfl

@[simp] theorem write_append (is js : List Item) : write (is ++ js) = write is ++ write js :=
  List.flatMap_append

theorem Item.codes {item : Item} (h : item.Short) : Codes item.bytes [item] := by
  cases item with
  | op code => exact Codes.opcode h
  | push data => exact Codes.direct h

/-- **What is written is read back**, whatever the data look like. -/
theorem codes_write {items : List Item} (h : ∀ i ∈ items, i.Short) :
    Codes (write items) items := by
  induction items with
  | nil => exact .nil
  | cons item items ih =>
      obtain ⟨hitem, hitems⟩ := List.forall_mem_cons.mp h
      exact (Item.codes hitem).append (ih hitems)

/-! ## Branches -/

def opIf : Item := .op 0x63
def opNotIf : Item := .op 0x64
def opElse : Item := .op 0x67
def opEndIf : Item := .op 0x68

/-- An item that opens, switches or closes a branch. -/
def Item.isControl (item : Item) : Bool :=
  item == opIf || item == opNotIf || item == opElse || item == opEndIf

/-- `IF`s, `ELSE`s and `ENDIF`s nest. -/
inductive Balanced : List Item → Prop where
  | nil : Balanced []
  | item {i : Item} : i.isControl = false → Balanced [i]
  | append {is js : List Item} : Balanced is → Balanced js → Balanced (is ++ js)
  | ifThen {is : List Item} : Balanced is → Balanced (opIf :: is ++ [opEndIf])
  | ifElse {is js : List Item} : Balanced is → Balanced js →
      Balanced (opIf :: is ++ opElse :: js ++ [opEndIf])

theorem Balanced.of_plain {is : List Item} (h : ∀ i ∈ is, i.isControl = false) :
    Balanced is := by
  induction is with
  | nil => exact .nil
  | cons i is ih =>
      obtain ⟨hi, his⟩ := List.forall_mem_cons.mp h
      exact .append (.item hi) (ih his)

section Execute

variable {α : Type} (truth : α → Bool)

/-- One item under the open conditions, the innermost first: the
conditions and the selectors after it, and what was executed. An `IF`
that is reached takes a selector, one in a branch not taken takes none;
`none` when a selector is missing or nothing is open to switch or
close. -/
def control (pos : Nat) (item : Item) (conds : List Bool) (sel : List α) :
    Option (List Bool × List α × List (Nat × Item)) :=
  if item = opIf ∨ item = opNotIf then
    if conds.all id then
      match sel with
      | [] => none
      | v :: sel => some ((truth v == (item == opIf)) :: conds, sel, [])
    else some (false :: conds, sel, [])
  else if item = opElse then
    match conds with
    | [] => none
    | c :: conds => some ((!c) :: conds, sel, [])
  else if item = opEndIf then
    match conds with
    | [] => none
    | _ :: conds => some (conds, sel, [])
  else some (conds, sel, if conds.all id then [(pos, item)] else [])

/-- Walk the items from position `pos` on: the items executed, with their
positions, and the selectors left over. -/
def execute (pos : Nat) (conds : List Bool) (sel : List α) :
    List Item → Option (List (Nat × Item) × List α)
  | [] => if conds = [] then some ([], sel) else none
  | item :: rest =>
      match control truth pos item conds sel with
      | none => none
      | some (conds, sel, done) =>
          (execute (pos + 1) conds sel rest).map fun r => (done ++ r.1, r.2)

variable {truth} {pos : Nat} {conds : List Bool} {sel : List α} {rest : List Item}

/-- An `IF` that is reached. -/
theorem execute_if (h : conds.all id = true) (v : α) :
    execute truth pos conds (v :: sel) (opIf :: rest) =
      execute truth (pos + 1) (truth v :: conds) sel rest := by
  have hstep : control truth pos opIf conds (v :: sel) = some (truth v :: conds, sel, []) := by
    simp [control, h]
  rw [execute, hstep]
  simp

theorem execute_if_nil (h : conds.all id = true) :
    execute truth pos conds [] (opIf :: rest) = none := by
  have hstep : control truth pos opIf conds [] = none := by simp [control, h]
  rw [execute, hstep]

/-- An `IF` in a branch that is not taken. -/
theorem execute_if_skipped (h : conds.all id = false) :
    execute truth pos conds sel (opIf :: rest) =
      execute truth (pos + 1) (false :: conds) sel rest := by
  have hstep : control truth pos opIf conds sel = some (false :: conds, sel, []) := by
    unfold control
    rw [if_pos (.inl rfl), h]
    rfl
  rw [execute, hstep]
  simp

theorem execute_else (c : Bool) :
    execute truth pos (c :: conds) sel (opElse :: rest) =
      execute truth (pos + 1) ((!c) :: conds) sel rest := by
  have hstep : control truth pos opElse (c :: conds) sel = some ((!c) :: conds, sel, []) := by
    simp [control, opElse, opIf, opNotIf]
  rw [execute, hstep]
  simp

theorem execute_endIf (c : Bool) :
    execute truth pos (c :: conds) sel (opEndIf :: rest) =
      execute truth (pos + 1) conds sel rest := by
  have hstep : control truth pos opEndIf (c :: conds) sel = some (conds, sel, []) := by
    simp [control, opElse, opIf, opNotIf, opEndIf]
  rw [execute, hstep]
  simp

/-- A plain item is executed or skipped. -/
theorem execute_plain {item : Item} (h : item.isControl = false) :
    execute truth pos conds sel (item :: rest) =
      (execute truth (pos + 1) conds sel rest).map
        fun r => ((if conds.all id then [(pos, item)] else []) ++ r.1, r.2) := by
  simp only [Item.isControl, Bool.or_eq_false_iff, beq_eq_false_iff_ne] at h
  obtain ⟨⟨⟨hif, hnotif⟩, helse⟩, hend⟩ := h
  have hstep : control truth pos item conds sel =
      some (conds, sel, if conds.all id then [(pos, item)] else []) := by
    unfold control
    rw [if_neg (by simp [hif, hnotif]), if_neg helse, if_neg hend]
  rw [execute, hstep]

end Execute

/-- A script of nested alternatives. -/
inductive Branching where
  | leaf (body : List Item)
  | choice (yes no : Branching)
  deriving DecidableEq, Repr

namespace Branching

/-- The script. -/
def items : Branching → List Item
  | leaf body => body
  | choice yes no => opIf :: yes.items ++ opElse :: no.items ++ [opEndIf]

/-- Nothing but the choices branches. -/
def Plain : Branching → Prop
  | leaf body => ∀ i ∈ body, i.isControl = false
  | choice yes no => yes.Plain ∧ no.Plain

/-- Every leaf does something. -/
def Busy : Branching → Prop
  | leaf body => body ≠ []
  | choice yes no => yes.Busy ∧ no.Busy

/-- The items of a leaf with their positions. -/
def numbered (pos : Nat) : List Item → List (Nat × Item)
  | [] => []
  | item :: rest => (pos, item) :: numbered (pos + 1) rest

/-- The leaves in order, each with the selectors that lead to it. -/
def leaves (pos : Nat) : Branching → List (List Bool × List (Nat × Item))
  | leaf body => [([], numbered pos body)]
  | choice yes no =>
      (yes.leaves (pos + 1)).map (fun l => (true :: l.1, l.2)) ++
        (no.leaves (pos + 1 + yes.items.length + 1)).map (fun l => (false :: l.1, l.2))

/-- The leaf the selectors lead to, and the selectors left over. -/
def descend {α : Type} (truth : α → Bool) (pos : Nat) :
    Branching → List α → Option (List (Nat × Item) × List α)
  | leaf body, sel => some (numbered pos body, sel)
  | choice _ _, [] => none
  | choice yes no, v :: sel =>
      if truth v then yes.descend truth (pos + 1) sel
      else no.descend truth (pos + 1 + yes.items.length + 1) sel

theorem balanced {t : Branching} (h : t.Plain) : Balanced t.items := by
  induction t with
  | leaf body => exact .of_plain h
  | choice yes no ihyes ihno => exact .ifElse (ihyes h.1) (ihno h.2)

/-- What may follow a script inside another: nothing, or the end of a
branch. -/
def Stops (rest : List Item) : Prop :=
  ∀ item ∈ rest.head?, item = opElse ∨ item = opEndIf

/-- A plain body ends where the branch does. -/
theorem body_inj {body body' rest rest' : List Item} (h : ∀ i ∈ body, i.isControl = false)
    (h' : ∀ i ∈ body', i.isControl = false) (hrest : Stops rest) (hrest' : Stops rest')
    (heq : body ++ rest = body' ++ rest') : body = body' ∧ rest = rest' := by
  have hcontrol : ∀ item, item = opElse ∨ item = opEndIf → item.isControl = true := by
    intro item hends
    rcases hends with rfl | rfl
    · rfl
    · rfl
  induction body generalizing body' with
  | nil =>
      cases body' with
      | nil => exact ⟨rfl, heq⟩
      | cons item body' =>
          rw [List.nil_append] at heq
          have hends := hcontrol item (hrest item (by rw [heq]; rfl))
          rw [h' item List.mem_cons_self] at hends
          cases hends
  | cons item body ih =>
      cases body' with
      | nil =>
          rw [List.nil_append] at heq
          have hends := hcontrol item (hrest' item (by rw [← heq]; rfl))
          rw [h item List.mem_cons_self] at hends
          cases hends
      | cons item' body' =>
          rw [List.cons_append, List.cons_append, List.cons.injEq] at heq
          obtain ⟨rfl, heq⟩ := heq
          obtain ⟨rfl, hrests⟩ := ih (fun i hi => h i (List.mem_cons_of_mem _ hi))
            (fun i hi => h' i (List.mem_cons_of_mem _ hi)) heq
          exact ⟨rfl, hrests⟩

/-- **A script determines its branches.** -/
theorem items_append_inj {t u : Branching} (ht : t.Plain) (hu : u.Plain) {rest rest' : List Item}
    (hrest : Stops rest) (hrest' : Stops rest') (heq : t.items ++ rest = u.items ++ rest') :
    t = u ∧ rest = rest' := by
  have hstart : ∀ {body rest : List Item} {more : List Item}, (∀ i ∈ body, i.isControl = false) →
      Stops rest → body ++ rest ≠ opIf :: more := by
    intro body rest more hbody hrest heq
    cases body with
    | nil =>
        rw [List.nil_append] at heq
        rcases hrest opIf (by rw [heq]; rfl) with h | h
        · exact absurd h (by decide)
        · exact absurd h (by decide)
    | cons item body =>
        rw [List.cons_append, List.cons.injEq] at heq
        have hplain := hbody item List.mem_cons_self
        rw [heq.1] at hplain
        cases hplain
  have hends : ∀ {item : Item} {more : List Item}, item = opElse ∨ item = opEndIf →
      Stops (item :: more) := by
    intro item more h i hi
    obtain rfl := Option.some.inj hi
    exact h
  induction t generalizing u rest rest' with
  | leaf body =>
      cases u with
      | leaf body' =>
          obtain ⟨rfl, hrests⟩ := body_inj ht hu hrest hrest' heq
          exact ⟨rfl, hrests⟩
      | choice yes no =>
          simp only [items, List.cons_append] at heq
          exact absurd heq (hstart ht hrest)
  | choice yes no ihyes ihno =>
      cases u with
      | leaf body' =>
          simp only [items, List.cons_append] at heq
          exact absurd heq.symm (hstart hu hrest')
      | choice yes' no' =>
          simp only [items, List.cons_append, List.append_assoc, List.nil_append,
            List.cons.injEq, true_and] at heq
          obtain ⟨hyes, hmiddle⟩ := ihyes ht.1 hu.1 (hends (.inl rfl)) (hends (.inl rfl)) heq
          rw [List.cons.injEq] at hmiddle
          obtain ⟨hno, hlast⟩ := ihno ht.2 hu.2 (hends (.inr rfl)) (hends (.inr rfl)) hmiddle.2
          rw [List.cons.injEq] at hlast
          exact ⟨by rw [hyes, hno], hlast.2⟩

theorem items_inj {t u : Branching} (ht : t.Plain) (hu : u.Plain) (heq : t.items = u.items) :
    t = u :=
  (@items_append_inj t u ht hu [] [] nofun nofun (by rw [heq])).1

variable {α : Type} {truth : α → Bool}

/-- A plain body is executed as a whole or skipped as a whole. -/
theorem execute_body {body : List Item} (h : ∀ i ∈ body, i.isControl = false) (pos : Nat)
    (conds : List Bool) (sel : List α) (rest : List Item) :
    execute truth pos conds sel (body ++ rest) =
      (execute truth (pos + body.length) conds sel rest).map
        fun r => ((if conds.all id then numbered pos body else []) ++ r.1, r.2) := by
  induction body generalizing pos with
  | nil => simp [numbered]
  | cons item body ih =>
      obtain ⟨hitem, hbody⟩ := List.forall_mem_cons.mp h
      rw [List.cons_append, execute_plain hitem, ih hbody, List.length_cons,
        show pos + (body.length + 1) = pos + 1 + body.length by omega, Option.map_map]
      congr 1
      funext r
      by_cases hall : conds.all id = true
      · simp [hall, numbered]
      · simp [hall]

/-- **A skipped script changes nothing.** -/
theorem execute_skipped {t : Branching} (h : t.Plain) (pos : Nat) {conds : List Bool}
    (hskip : conds.all id = false) (sel : List α) (rest : List Item) :
    execute truth pos conds sel (t.items ++ rest) =
      execute truth (pos + t.items.length) conds sel rest := by
  induction t generalizing pos conds rest with
  | leaf body =>
      rw [items, execute_body h, hskip]
      simp
  | choice yes no ihyes ihno =>
      have hfalse : ((false : Bool) :: conds).all id = false := rfl
      have htrue : ((!false) :: conds).all id = false := by simpa using hskip
      simp only [items, List.cons_append, List.append_assoc, List.nil_append]
      rw [execute_if_skipped hskip, ihyes h.1 _ hfalse, execute_else, ihno h.2 _ htrue,
        execute_endIf]
      congr 1
      simp only [List.length_cons, List.length_append, List.length_nil]
      omega

/-- **A script that is reached runs down to one leaf**: the walk is the
descent along the selectors. -/
theorem execute_items {t : Branching} (h : t.Plain) (pos : Nat) {conds : List Bool}
    (hall : conds.all id = true) (sel : List α) (rest : List Item) :
    execute truth pos conds sel (t.items ++ rest) =
      match t.descend truth pos sel with
      | none => none
      | some (done, left) =>
          (execute truth (pos + t.items.length) conds left rest).map
            fun r => (done ++ r.1, r.2) := by
  induction t generalizing pos conds sel rest with
  | leaf body =>
      rw [items, execute_body h]
      simp only [descend, hall, if_true]
  | choice yes no ihyes ihno =>
      simp only [items, List.cons_append, List.append_assoc, List.nil_append]
      cases sel with
      | nil => rw [execute_if_nil hall, descend]
      | cons v sel =>
          rw [execute_if hall, descend]
          cases hv : truth v with
          | true =>
              -- the first script runs, the second is skipped
              have hyes : ((true : Bool) :: conds).all id = true := by simpa using hall
              have hno : ((!true) :: conds).all id = false := rfl
              rw [ihyes h.1 _ hyes, if_pos rfl]
              cases yes.descend truth (pos + 1) sel with
              | none => rfl
              | some r =>
                  dsimp only
                  rw [execute_else, execute_skipped h.2 _ hno, execute_endIf]
                  congr 2
                  simp only [List.length_cons, List.length_append, List.length_nil]
                  omega
          | false =>
              have hyes : ((false : Bool) :: conds).all id = false := rfl
              have hno : ((!false) :: conds).all id = true := by simpa using hall
              rw [execute_skipped h.1 _ hyes, execute_else, ihno h.2 _ hno, if_neg (by simp)]
              cases no.descend truth (pos + 1 + yes.items.length + 1) sel with
              | none => rfl
              | some r =>
                  dsimp only
                  rw [execute_endIf]
                  congr 2
                  simp only [List.length_cons, List.length_append, List.length_nil]
                  omega

/-- A script on its own. -/
theorem execute_eq {t : Branching} (h : t.Plain) (sel : List α) :
    execute truth 0 [] sel t.items = t.descend truth 0 sel := by
  have hrun : execute truth 0 [] sel (t.items ++ []) = _ := execute_items h 0 rfl sel []
  rw [List.append_nil] at hrun
  rw [hrun]
  cases t.descend truth 0 sel with
  | none => rfl
  | some r => simp [execute]

/-! ## Leaves -/

/-- The leaves of a choice: a selector more, and the leaf of its side. -/
theorem mem_leaves_choice {yes no : Branching} {pos : Nat} {path : List Bool}
    {done : List (Nat × Item)} :
    (path, done) ∈ (choice yes no).leaves pos ↔
      ∃ side rest, path = side :: rest ∧ (rest, done) ∈
        if side then yes.leaves (pos + 1) else no.leaves (pos + 1 + yes.items.length + 1) := by
  simp only [leaves, List.mem_append, List.mem_map, Prod.exists, Prod.mk.injEq]
  constructor
  · rintro (⟨rest, d, hleaf, rfl, rfl⟩ | ⟨rest, d, hleaf, rfl, rfl⟩)
    · exact ⟨true, rest, rfl, hleaf⟩
    · exact ⟨false, rest, rfl, hleaf⟩
  · rintro ⟨side, rest, rfl, hleaf⟩
    cases side with
    | true => exact .inl ⟨rest, done, hleaf, rfl, rfl⟩
    | false => exact .inr ⟨rest, done, hleaf, rfl, rfl⟩

/-- **The descent ends at a leaf**: the selectors it uses up are the path
of the leaf. -/
theorem descend_eq_some_iff {t : Branching} {pos : Nat} {sel left : List α}
    {done : List (Nat × Item)} :
    t.descend truth pos sel = some (done, left) ↔
      ∃ used, sel = used ++ left ∧ (used.map truth, done) ∈ t.leaves pos := by
  induction t generalizing pos sel with
  | leaf body =>
      simp only [descend, leaves, Option.some.injEq, Prod.mk.injEq, List.mem_singleton,
        List.map_eq_nil_iff]
      constructor
      · rintro ⟨rfl, rfl⟩
        exact ⟨[], rfl, rfl, rfl⟩
      · rintro ⟨used, rfl, rfl, rfl⟩
        exact ⟨rfl, rfl⟩
  | choice yes no ihyes ihno =>
      simp only [mem_leaves_choice]
      cases sel with
      | nil =>
          simp only [descend, reduceCtorEq, false_iff]
          rintro ⟨used, hused, side, rest, hpath, _⟩
          obtain ⟨rfl, rfl⟩ := List.append_eq_nil_iff.mp hused.symm
          cases hpath
      | cons v sel =>
          -- the descent goes to the side the selector names
          have hside : (choice yes no).descend truth pos (v :: sel) = some (done, left) ↔
              ∃ used, sel = used ++ left ∧ (used.map truth, done) ∈
                if truth v then yes.leaves (pos + 1)
                else no.leaves (pos + 1 + yes.items.length + 1) := by
            rw [descend]
            cases truth v with
            | true => exact ihyes
            | false => exact ihno
          rw [hside]
          constructor
          · rintro ⟨used, rfl, hleaf⟩
            exact ⟨v :: used, rfl, truth v, _, rfl, hleaf⟩
          · rintro ⟨used, hsel, side, rest, hpath, hleaf⟩
            cases used with
            | nil => cases hpath
            | cons w used =>
                obtain ⟨rfl, rfl⟩ := List.cons.inj hsel
                obtain ⟨rfl, rfl⟩ := List.cons.inj hpath
                exact ⟨used, rfl, hleaf⟩

theorem length_numbered (pos : Nat) (body : List Item) :
    (numbered pos body).length = body.length := by
  induction body generalizing pos with
  | nil => rfl
  | cons item body ih => simp [numbered, ih]

/-- Positions are counted from the start of the body. -/
theorem pos_of_mem_numbered {pos : Nat} {body : List Item} {e : Nat × Item}
    (h : e ∈ numbered pos body) : pos ≤ e.1 ∧ e.1 < pos + body.length := by
  induction body generalizing pos with
  | nil => cases h
  | cons item body ih =>
      rw [List.length_cons]
      rcases List.mem_cons.mp h with rfl | h
      · exact ⟨Nat.le_refl _, by dsimp only; omega⟩
      · have := ih h
        omega

/-- What a leaf executes lies inside its script. -/
theorem pos_of_mem_leaves {t : Branching} {pos : Nat} {path : List Bool}
    {done : List (Nat × Item)} (hleaf : (path, done) ∈ t.leaves pos) {e : Nat × Item}
    (he : e ∈ done) : pos ≤ e.1 ∧ e.1 < pos + t.items.length := by
  induction t generalizing pos path with
  | leaf body =>
      simp only [leaves, List.mem_singleton, Prod.mk.injEq] at hleaf
      obtain ⟨_, rfl⟩ := hleaf
      exact pos_of_mem_numbered he
  | choice yes no ihyes ihno =>
      obtain ⟨side, rest, _, hleaf⟩ := mem_leaves_choice.mp hleaf
      simp only [items, List.length_cons, List.length_append, List.length_nil]
      cases side with
      | true =>
          have := ihyes hleaf
          omega
      | false =>
          have := ihno hleaf
          omega

/-- A busy leaf executes something. -/
theorem ne_nil_of_mem_leaves {t : Branching} (hbusy : t.Busy) {pos : Nat} {path : List Bool}
    {done : List (Nat × Item)} (hleaf : (path, done) ∈ t.leaves pos) : done ≠ [] := by
  induction t generalizing pos path with
  | leaf body =>
      simp only [leaves, List.mem_singleton, Prod.mk.injEq] at hleaf
      obtain ⟨_, rfl⟩ := hleaf
      intro hnil
      have hlen := length_numbered pos body
      rw [hnil] at hlen
      exact hbusy (List.length_eq_zero_iff.mp hlen.symm)
  | choice yes no ihyes ihno =>
      obtain ⟨side, rest, _, hleaf⟩ := mem_leaves_choice.mp hleaf
      cases side with
      | true => exact ihyes hbusy.1 hleaf
      | false => exact ihno hbusy.2 hleaf

/-- **A leaf has one path**: leaves are told apart by their positions. -/
theorem path_unique {t : Branching} (hbusy : t.Busy) {pos : Nat} {p q : List Bool}
    {done : List (Nat × Item)} (hp : (p, done) ∈ t.leaves pos) (hq : (q, done) ∈ t.leaves pos) :
    p = q := by
  induction t generalizing pos p q with
  | leaf body =>
      simp only [leaves, List.mem_singleton, Prod.mk.injEq] at hp hq
      rw [hp.1, hq.1]
  | choice yes no ihyes ihno =>
      obtain ⟨e, he⟩ := List.exists_mem_of_ne_nil _ (ne_nil_of_mem_leaves hbusy hp)
      obtain ⟨side, p, rfl, hleft⟩ := mem_leaves_choice.mp hp
      obtain ⟨side', q, rfl, hright⟩ := mem_leaves_choice.mp hq
      cases side with
      | true =>
          cases side' with
          | true => rw [ihyes hbusy.1 hleft hright]
          | false =>
              have hin := pos_of_mem_leaves (t := yes) hleft he
              have hin' := pos_of_mem_leaves (t := no) hright he
              omega
      | false =>
          cases side' with
          | false => rw [ihno hbusy.2 hleft hright]
          | true =>
              have hin := pos_of_mem_leaves (t := no) hleft he
              have hin' := pos_of_mem_leaves (t := yes) hright he
              omega

/-- **Each leaf is executed for exactly one choice of the selectors.** -/
theorem executed_once {t : Branching} (hplain : t.Plain) (hbusy : t.Busy) {path : List Bool}
    {done : List (Nat × Item)} (hleaf : (path, done) ∈ t.leaves 0) :
    ∃! sel, execute id 0 [] sel t.items = some (done, []) := by
  refine ⟨path, ?_, ?_⟩
  · show execute id 0 [] path t.items = _
    rw [execute_eq hplain, descend_eq_some_iff]
    exact ⟨path, (List.append_nil _).symm, by rwa [List.map_id]⟩
  · intro sel hsel
    rw [execute_eq hplain, descend_eq_some_iff] at hsel
    obtain ⟨used, rfl, hused⟩ := hsel
    rw [List.map_id] at hused
    rw [List.append_nil]
    exact path_unique hbusy hused hleaf

end Branching

end Basis.Script
