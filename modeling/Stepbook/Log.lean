/-! # Log records

What happens is told in records: a level of importance and a message.

* `Record`, `Record.line`: a record and its text.
* `Logged`: a value with the records of how it came about.
-/

namespace Stepbook
set_option autoImplicit false

namespace Log

inductive Level where
  | debug
  | info
  | warn
  deriving DecidableEq, Repr

def Level.name : Level → String
  | .debug => "DEBUG"
  | .info => "INFO"
  | .warn => "WARN"

structure Record where
  level : Level
  message : String
  deriving DecidableEq, Repr

def Record.line (record : Record) : String :=
  record.level.name ++ " " ++ record.message

end Log

structure Logged (α : Type) where
  records : List Log.Record
  value : α

namespace Logged
variable {α β : Type}

instance : Monad Logged where
  pure value := ⟨[], value⟩
  bind told next := ⟨told.records ++ (next told.value).records, (next told.value).value⟩

@[simp] theorem value_pure (value : α) : (pure value : Logged α).value = value := rfl

@[simp] theorem value_bind (told : Logged α) (next : α → Logged β) :
    (told >>= next).value = (next told.value).value := rfl

@[simp] theorem records_pure (value : α) : (pure value : Logged α).records = [] := rfl

@[simp] theorem records_bind (told : Logged α) (next : α → Logged β) :
    (told >>= next).records = told.records ++ (next told.value).records := rfl

instance : LawfulMonad Logged :=
  .mk' Logged
    (fun told => congrArg (Logged.mk · told.value) (List.append_nil told.records))
    (fun _ _ => rfl)
    (fun told next last => congrArg (Logged.mk · (last (next told.value).value).value)
      (List.append_assoc told.records (next told.value).records _))

end Logged

end Stepbook
