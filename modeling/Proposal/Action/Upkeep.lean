import Proposal.Action.Basic
import Proposal.Contract.Dao

namespace Proposal

namespace CancelVesting

def ofMessage? (message : Message) : Option CancelVesting := do
  let call ← message.unfunded?
  match call.data with
  | VestingContract.Execute.cancel => return ⟨call.contract⟩
  | _ => none

def blank : CancelVesting := ⟨""⟩

def validate (form : CancelVesting) : List FieldError :=
  Field.checkAddress "vesting_contract" form.contract

def encode (form : CancelVesting) : Result Message := do
  Field.ensureNone form.validate
  return .execute form.contract (valueOf VestingContract.Execute.cancel) []

end CancelVesting

namespace RegisterSlash

def ofMessage? (message : Message) : Option RegisterSlash := do
  let call ← message.unfunded?
  match call.data with
  | VestingContract.Execute.registerSlash validator time amount duringUnbonding =>
    return ⟨call.contract, validator, time, amount, duringUnbonding⟩
  | _ => none

def blank (context : Context) : RegisterSlash := ⟨"", "", context.now, .zero, false⟩

def validate (form : RegisterSlash) (context : Context) : List FieldError :=
  Field.checkAddress "vesting_contract" form.contract ++
    Field.checkPresent "validator" form.validator ++
    (if form.amount.val = 0 then [⟨"amount", "amount must be greater than zero"⟩] else []) ++
    (if context.now < form.time then [⟨"time", "slash cannot be in the future"⟩] else [])

def encode (form : RegisterSlash) (context : Context) : Result Message := do
  Field.ensureNone (form.validate context)
  return .execute form.contract
    (valueOf
      (VestingContract.Execute.registerSlash form.validator form.time form.amount
        form.duringUnbonding)) []

end RegisterSlash

namespace SetItem

def ofMessage? (message : Message) : Option SetItem := do
  let call ← message.unfunded?
  match call.data with
  | DaoCore.Execute.setItem key value => return ⟨key, value⟩
  | _ => none

def blank : SetItem := ⟨"", ""⟩

def validate (form : SetItem) : List FieldError := Field.checkPresent "key" form.key

def encode (form : SetItem) (context : Context) : Result Message := do
  Field.ensureNone form.validate
  return .execute context.dao (valueOf (DaoCore.Execute.setItem form.key form.value)) []

end SetItem

namespace RemoveItem

def ofMessage? (message : Message) : Option RemoveItem := do
  let call ← message.unfunded?
  match call.data with
  | DaoCore.Execute.removeItem key => return ⟨key⟩
  | _ => none

def blank : RemoveItem := ⟨""⟩

def validate (form : RemoveItem) : List FieldError := Field.checkPresent "key" form.key

def encode (form : RemoveItem) (context : Context) : Result Message := do
  Field.ensureNone form.validate
  return .execute context.dao (valueOf (DaoCore.Execute.removeItem form.key)) []

end RemoveItem

end Proposal
