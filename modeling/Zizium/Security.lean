import Zizium.Runtime

/-!
# Access checks

Security identifiers, tokens and descriptors of `kernel/include/zi/security.h`, and the
ordered access check of `kernel/executive/security/access_check.c`.
-/

namespace Zizium

open BlockIO

abbrev accessExecute : ℕ := 4
abbrev accessFullControl : ℕ := 255

abbrev aceDeny : ℕ := 0
abbrev aceAllow : ℕ := 1
abbrev aceInheritOnly : ℕ := 4
abbrev aceInheritSupported : ℕ := 15

abbrev authoritySystem : ℕ := 1
abbrev authorityGroup : ℕ := 2
abbrev authorityUser : ℕ := 3
abbrev authorityService : ℕ := 4

abbrev maximumAces : ℕ := 64
abbrev maximumTokenGroups : ℕ := 16

/-- Sizes of the C structures, checked through their `struct_size` fields. -/
abbrev aclStructSize : ℕ := 24
abbrev descriptorStructSize : ℕ := 40
abbrev tokenStructSize : ℕ := 40

/-- Whether a 32-bit mask has bits outside the defined rights. -/
def outsideFullControl (mask : ℕ) : Bool := decide (mask &&& (uint32Max-accessFullControl) ≠ 0)

structure ZiSecurityId where
  authority : ℕ
  value : ℕ
  deriving DecidableEq, Repr

structure ZiAce where
  type : ℕ
  inheritanceFlags : ℕ
  reserved : ℕ
  accessMask : ℕ
  trustee : ZiSecurityId
  deriving DecidableEq, Repr

structure ZiAcl where
  structSize : ℕ
  version : ℕ
  entries : List ZiAce
  deriving DecidableEq, Repr

structure ZiSecurityDescriptor where
  structSize : ℕ
  version : ℕ
  owner : ZiSecurityId
  primaryGroup : ZiSecurityId
  dacl : Option ZiAcl
  controlFlags : ℕ
  deriving DecidableEq, Repr

structure ZiAccessToken where
  structSize : ℕ
  version : ℕ
  user : ZiSecurityId
  groups : List ZiSecurityId
  privileges : ℕ
  deriving DecidableEq, Repr

def ziSecurityIdValidate (id : ZiSecurityId) : Bool :=
  decide (id.value ≠ 0 ∧ id.authority ≥ authoritySystem ∧ id.authority ≤ authorityService)

def validateGroups : (previous groups : List ZiSecurityId) → Bool
  | _, [] => true
  | previous, group :: groups =>
    ziSecurityIdValidate group && decide (group.authority = authorityGroup) &&
      previous.all (· ≠ group) && validateGroups (previous ++ [group]) groups

def ziSecurityTokenValidate (token : ZiAccessToken) : Bool :=
  decide (token.structSize = tokenStructSize) && decide (token.version = 1) &&
    ziSecurityIdValidate token.user && decide (token.user.authority ≠ authorityGroup) &&
    decide (token.groups.length ≤ maximumTokenGroups) && validateGroups [] token.groups

/-- The rules for one entry, checked by both the executive and the on-disk table. -/
def validateSecurityAce (entry : ZiAce) : Bool :=
  !decide ((entry.type ≠ aceDeny ∧ entry.type ≠ aceAllow) ∨ entry.reserved ≠ 0 ∨
    entry.inheritanceFlags &&& (255-aceInheritSupported) ≠ 0 ∨ entry.accessMask = 0 ∨
    outsideFullControl entry.accessMask ∨ ziSecurityIdValidate entry.trustee = false)

def ziSecurityDescriptorValidate (descriptor : ZiSecurityDescriptor) : Bool :=
  if descriptor.structSize ≠ descriptorStructSize ∨ descriptor.version ≠ 1 ∨
      ziSecurityIdValidate descriptor.owner = false ∨
      ziSecurityIdValidate descriptor.primaryGroup = false ∨ descriptor.controlFlags ≠ 0 then false
  else match descriptor.dacl with
    | none => true
    | some dacl =>
      if dacl.structSize ≠ aclStructSize ∨ dacl.version ≠ 1 ∨
          dacl.entries.length > maximumAces then false
      else dacl.entries.all validateSecurityAce

def tokenContainsId (token : ZiAccessToken) (id : ZiSecurityId) : Bool :=
  decide (token.user = id) || token.groups.any (· = id)

def accessCheckLoop (token : ZiAccessToken) : (remaining granted : ℕ) → List ZiAce → Result ℕ
  | _, _, [] => throw .accessDenied
  | remaining, granted, entry :: entries =>
    if entry.inheritanceFlags &&& aceInheritOnly ≠ 0 ∨ tokenContainsId token entry.trustee = false
    then accessCheckLoop token remaining granted entries
    else
      let relevant := entry.accessMask &&& remaining
      if relevant = 0 then accessCheckLoop token remaining granted entries
      else if entry.type = aceDeny then throw .accessDenied
      else if entry.type ≠ aceAllow then throw .invalidArgument
      else
        let granted := granted ||| relevant
        let remaining := remaining &&& (uint32Max-relevant)
        if remaining = 0 then pure granted
        else accessCheckLoop token remaining granted entries

def ziSecurityAccessCheck (descriptor : ZiSecurityDescriptor) (token : ZiAccessToken)
    (requestedAccess : ℕ) : Result ℕ := do
  failIf (outsideFullControl requestedAccess ∨ ziSecurityDescriptorValidate descriptor = false ∨
    ziSecurityTokenValidate token = false) .invalidArgument
  if requestedAccess = 0 then pure 0
  else match descriptor.dacl with
    | none => throw .accessDenied
    | some dacl =>
      if dacl.entries.length = 0 then throw .accessDenied
      else accessCheckLoop token requestedAccess 0 dacl.entries

end Zizium
