import GlitchRuntime.Lib.Word

/-! # Ethereum transactions

The three transaction formats and the one record the pallet validates them through.
-/

namespace GlitchRuntime.Ethereum

open Lib

/-- An Ethereum address. -/
abbrev H160 := Bytes 20

/-- A 32-byte hash or storage key. -/
abbrev H256 := Bytes 32

/-- Addresses with the storage keys a transaction announces. -/
abbrev AccessList := List (H160 × List H256)

inductive TransactionAction
  | call (address : H160)
  | create
deriving DecidableEq

/-- What the pallet reads of a legacy signature: the chain it binds, if it binds one. -/
structure TransactionSignature where
  chainId : Option U64
deriving DecidableEq

structure AccessListItem where
  address : H160
  storageKeys : List H256
deriving DecidableEq

structure LegacyTransaction where
  nonce : U256
  gasPrice : U256
  gasLimit : U256
  action : TransactionAction
  value : U256
  input : List UInt8
  signature : TransactionSignature
deriving DecidableEq

structure EIP2930Transaction where
  chainId : U64
  nonce : U256
  gasPrice : U256
  gasLimit : U256
  action : TransactionAction
  value : U256
  input : List UInt8
  accessList : List AccessListItem
deriving DecidableEq

structure EIP1559Transaction where
  chainId : U64
  nonce : U256
  maxPriorityFeePerGas : U256
  maxFeePerGas : U256
  gasLimit : U256
  action : TransactionAction
  value : U256
  input : List UInt8
  accessList : List AccessListItem
deriving DecidableEq

inductive Transaction
  | legacy (t : LegacyTransaction)
  | eip2930 (t : EIP2930Transaction)
  | eip1559 (t : EIP1559Transaction)
deriving DecidableEq

namespace Transaction

def nonce : Transaction → U256
  | legacy t => t.nonce
  | eip2930 t => t.nonce
  | eip1559 t => t.nonce

def gasLimit : Transaction → U256
  | legacy t => t.gasLimit
  | eip2930 t => t.gasLimit
  | eip1559 t => t.gasLimit

def value : Transaction → U256
  | legacy t => t.value
  | eip2930 t => t.value
  | eip1559 t => t.value

def action : Transaction → TransactionAction
  | legacy t => t.action
  | eip2930 t => t.action
  | eip1559 t => t.action

def input : Transaction → List UInt8
  | legacy t => t.input
  | eip2930 t => t.input
  | eip1559 t => t.input

end Transaction

structure TransactionData where
  action : TransactionAction
  input : List UInt8
  nonce : U256
  gasLimit : U256
  gasPrice : Option U256
  maxFeePerGas : Option U256
  maxPriorityFeePerGas : Option U256
  value : U256
  chainId : Option U64
  accessList : AccessList
deriving DecidableEq

/-- The addresses and keys of an access list, without their wrapper. -/
def accessListOf (items : List AccessListItem) : AccessList :=
  items.map fun item => (item.address, item.storageKeys)

def transactionData : Transaction → TransactionData
  | .legacy t =>
    { action := t.action
      input := t.input
      nonce := t.nonce
      gasLimit := t.gasLimit
      gasPrice := some t.gasPrice
      maxFeePerGas := none
      maxPriorityFeePerGas := none
      value := t.value
      chainId := t.signature.chainId
      accessList := [] }
  | .eip2930 t =>
    { action := t.action
      input := t.input
      nonce := t.nonce
      gasLimit := t.gasLimit
      gasPrice := some t.gasPrice
      maxFeePerGas := none
      maxPriorityFeePerGas := none
      value := t.value
      chainId := some t.chainId
      accessList := accessListOf t.accessList }
  | .eip1559 t =>
    { action := t.action
      input := t.input
      nonce := t.nonce
      gasLimit := t.gasLimit
      gasPrice := none
      maxFeePerGas := some t.maxFeePerGas
      maxPriorityFeePerGas := some t.maxPriorityFeePerGas
      value := t.value
      chainId := some t.chainId
      accessList := accessListOf t.accessList }

section transactionData

variable (t : Transaction)

@[simp] theorem transactionData_nonce : (transactionData t).nonce = t.nonce := by
  cases t <;> rfl

@[simp] theorem transactionData_gasLimit : (transactionData t).gasLimit = t.gasLimit := by
  cases t <;> rfl

@[simp] theorem transactionData_value : (transactionData t).value = t.value := by
  cases t <;> rfl

@[simp] theorem transactionData_action : (transactionData t).action = t.action := by
  cases t <;> rfl

@[simp] theorem transactionData_input : (transactionData t).input = t.input := by
  cases t <;> rfl

end transactionData

end GlitchRuntime.Ethereum
