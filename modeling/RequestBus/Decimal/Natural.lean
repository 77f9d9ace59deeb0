namespace RequestBus.Decimal

def digitChar (d : Nat) : Char := Char.ofNat (0x30 + d)

def digit? (c : Char) : Option Nat :=
  if '0' ≤ c ∧ c ≤ '9' then some (c.toNat - 0x30) else none

def digits (n : Nat) : List Char :=
  if n < 10 then [digitChar n] else digits (n / 10) ++ [digitChar (n % 10)]

def valueFrom (sofar : Nat) : List Char → Option Nat
  | [] => some sofar
  | c :: rest => (digit? c).bind fun d => valueFrom (sofar * 10 + d) rest

def value? (cs : List Char) : Option Nat := if cs = [] then none else valueFrom 0 cs

def natText (n : Nat) : String := String.ofList (digits n)

def intText (n : Int) : String :=
  match n with
  | .ofNat n => natText n
  | .negSucc n => String.ofList ('-' :: digits (n + 1))

theorem digit?_digitChar (d : Nat) (h : d < 10) : digit? (digitChar d) = some d := by
  have all : ∀ d : Fin 10, digit? (digitChar d) = some d.val := by decide
  exact all ⟨d, h⟩

theorem valueFrom_append (xs ys : List Char) (n : Nat) :
    valueFrom n (xs ++ ys) = (valueFrom n xs).bind fun m => valueFrom m ys := by
  induction xs generalizing n with
  | nil => simp [valueFrom]
  | cons c rest ih =>
    cases hc : digit? c with
    | none => simp [valueFrom, hc]
    | some d => simp [valueFrom, hc, ih]

theorem digits_ne_nil (n : Nat) : digits n ≠ [] := by
  rw [digits]; split <;> simp

theorem valueFrom_digits (n : Nat) : valueFrom 0 (digits n) = some n := by
  induction n using Nat.strongRecOn with
  | _ n ih =>
    rw [digits]
    split
    · rename_i h
      simp [valueFrom, digit?_digitChar n h]
    · rename_i h
      rw [valueFrom_append, ih (n / 10) (by omega)]
      simp only [Option.bind_some, valueFrom, digit?_digitChar (n % 10) (by omega)]
      congr 1
      omega

theorem value?_digits (n : Nat) : value? (digits n) = some n := by
  simp [value?, digits_ne_nil, valueFrom_digits]

end RequestBus.Decimal
