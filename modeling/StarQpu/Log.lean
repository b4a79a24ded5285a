import StarQpu.Text.Quoted

/-!
# StarQpu.Log

**Events that a computation leaves behind.** A computation that may fail and may log something is a
`Logged` value: the events so far and the result. Events are kept when the computation fails, and
those of a later step stand behind those of an earlier one.
-/

namespace StarQpu

/-- How important an event is. -/
inductive Level where
  | debug
  | info
  | warn
  deriving DecidableEq

/-- The name of a level, aligned to five characters. -/
def Level.label : Level → String
  | .debug => "DEBUG"
  | .info => " INFO"
  | .warn => " WARN"

/-- Are events of this level shown where `threshold` is the lowest level that is? -/
def Level.reaches (level threshold : Level) : Bool :=
  match threshold, level with
  | .debug, _ => true
  | .info, .debug => false
  | .info, _ => true
  | .warn, .warn => true
  | .warn, _ => false

/-- What an event says beside its message. -/
inductive FieldValue where
  | text (s : String)
  | number (n : Nat)
  deriving DecidableEq

/-- An event. -/
structure Event where
  level : Level
  /-- The part of the program that speaks. -/
  origin : String
  message : String
  fields : List (String × FieldValue) := []
  deriving DecidableEq

/-- The value of a field as a line of the log shows it. -/
def FieldValue.render : FieldValue → String
  | .text s => Text.quoted s
  | .number n => toString n

/-- The value of a field as plain text. -/
def FieldValue.plain : FieldValue → String
  | .text s => s
  | .number n => toString n

/-- A character of a message as a line of the log shows it. The control characters that a terminal
would act on are spelled out; line ends and tabs are kept. -/
def harmlessChar (c : Char) : List Char :=
  let n := c.toNat
  if n = 0x07 || n = 0x08 || n = 0x0C || n = 0x1B || n = 0x7F then
    ['\\', 'x', Text.hexDigit (n / 16), Text.hexDigit (n % 16)]
  else if 0x80 ≤ n && n ≤ 0x9F then ['\\', 'u', '\x7b'] ++ Text.hexDigits n ++ ['\x7d']
  else [c]

/-- A message as a line of the log shows it. -/
def harmless (message : String) : String := String.ofList (message.toList.flatMap harmlessChar)

/-- The line of an event, behind the given time. -/
def Event.render (time : String) (e : Event) : String :=
  time ++ " " ++ e.level.label ++ " " ++ e.origin ++ ": " ++ harmless e.message ++
    String.join (e.fields.map fun (name, value) => " " ++ name ++ "=" ++ value.render)

/-- A computation that may fail, and the events it has logged either way. -/
structure Logged (ε α : Type) where
  log : List Event
  result : Except ε α

namespace Logged

variable {ε α β : Type}

/-- A result without events. -/
def ofExcept (r : Except ε α) : Logged ε α := ⟨[], r⟩

/-- Logs an event. -/
def tell (e : Event) : Logged ε Unit := ⟨[e], .ok ()⟩

/-- Logs events. -/
def tellAll (es : List Event) : Logged ε Unit := ⟨es, .ok ()⟩

/-- The next step works on the result of this one, unless this one has failed. -/
def bind (x : Logged ε α) (f : α → Logged ε β) : Logged ε β :=
  match x.result with
  | .ok a => ⟨x.log ++ (f a).log, (f a).result⟩
  | .error e => ⟨x.log, .error e⟩

instance : Monad (Logged ε) where
  pure a := ⟨[], .ok a⟩
  bind := bind

instance : MonadLift (Except ε) (Logged ε) := ⟨ofExcept⟩

instance : MonadExceptOf ε (Logged ε) where
  throw e := ⟨[], .error e⟩
  tryCatch x handle :=
    match x.result with
    | .ok _ => x
    | .error e => ⟨x.log ++ (handle e).log, (handle e).result⟩

/-- The same computation with another kind of failure. -/
def mapError {δ : Type} (f : ε → δ) (x : Logged ε α) : Logged δ α :=
  ⟨x.log, x.result.mapError f⟩

@[simp] theorem result_pure (a : α) : (pure a : Logged ε α).result = .ok a := rfl

@[simp] theorem log_pure (a : α) : (pure a : Logged ε α).log = [] := rfl

@[simp] theorem result_throw (e : ε) : (throw e : Logged ε α).result = .error e := rfl

@[simp] theorem result_bind (x : Logged ε α) (f : α → Logged ε β) :
    (x >>= f).result = x.result.bind fun a => (f a).result := by
  show (x.bind f).result = _
  unfold bind
  cases x.result <;> rfl

theorem log_bind_of_ok {x : Logged ε α} {a : α} (h : x.result = .ok a) (f : α → Logged ε β) :
    (x >>= f).log = x.log ++ (f a).log := by
  show (x.bind f).log = _
  rw [bind, h]

theorem log_bind_of_error {x : Logged ε α} {e : ε} (h : x.result = .error e)
    (f : α → Logged ε β) : (x >>= f).log = x.log := by
  show (x.bind f).log = _
  rw [bind, h]

/-- What is made of a result without logging anything leaves the log as it is. -/
theorem log_bind_of_silent {x : Logged ε α} {f : α → Logged ε β} (h : ∀ a, (f a).log = []) :
    (x >>= f).log = x.log := by
  cases hx : x.result with
  | ok a => rw [log_bind_of_ok hx, h, List.append_nil]
  | error e => exact log_bind_of_error hx f

end Logged

end StarQpu
