import BallyOS.Command.Request
import BallyOS.Library.Durable

/-! The identity of a boot: a source id out of the factory MAC, and a boot id
one further than the last that NVS kept. What NVS and the fuses answer comes
with the call. -/
namespace BallyOS.Boot
open Command Library

/-- The answers of the ESP-IDF calls that are told apart here. -/
inductive EspErr
  | ok | noFreePages | newVersionFound | notFound | other (code : Int)
deriving Repr, DecidableEq

abbrev Mac := Fin 6 → UInt8

/-- What the calls that `configureProtocolIdentity` makes answer. An erase or a write
that fails may still have been done; a read that does not fail finds what is there. -/
structure Answers where
  init : EspErr
  erase : EspErr
  erased : Bool
  reinit : EspErr
  mac : Option Mac
  opens : EspErr
  get : Option Int
  set : EspErr
  wrote : Bool
  commit : EspErr
  committed : Bool

/-- The ids are zero until there is an identity. -/
structure Names where
  sourceId : UInt32
  bootId : UInt32
  uuid : List UInt8
  dongleSourceId : UInt32
deriving Repr, DecidableEq

/-- Before the first call. -/
def Names.unset : Names := ⟨0, 0, List.replicate 16 0, 0⟩

def sourceIdFromMac (mac : Mac) : UInt32 :=
  let sourceId := (mac 2).toUInt32 <<< 24 ||| (mac 3).toUInt32 <<< 16 ||| (mac 4).toUInt32 <<< 8 |||
    (mac 5).toUInt32
  if sourceId = 0 then 1 else sourceId

def kUuidSuffix : List UInt8 :=
  [0xB0, 0xB1, 0xB2, 0xB3, 0xB4, 0xB5, 0xB6, 0xB7, 0xB8, 0xB9]

def nextBootId (previousBootId : UInt32) : UInt32 :=
  if previousBootId = 0xFFFFFFFF then 1 else previousBootId + 1

/-- `nvs_flash_init`, with the partition erased where it has to be. -/
def openFlash (nvs : Durable UInt32) (answers : Answers) : EspErr × Durable UInt32 :=
  if answers.init = .noFreePages ∨ answers.init = .newVersionFound then
    let nvs := if answers.erase = .ok ∨ answers.erased then .of none else nvs
    (if answers.erase = .ok then answers.reinit else answers.erase, nvs)
  else (answers.init, nvs)

/-- `nvs_get_u32` of `last_boot`; the number stays zero where there is none. -/
def lastBoot (nvs : Durable UInt32) (answers : Answers) : EspErr × UInt32 :=
  match answers.get, nvs.written with
  | some code, _ => (.other code, 0)
  | none, some value => (.ok, value)
  | none, none => (.notFound, 0)

/-- `nvs_set_u32` and `nvs_commit`. -/
def keepBoot (nvs : Durable UInt32) (bootId : UInt32) (answers : Answers) :
    EspErr × Durable UInt32 :=
  if answers.set = .ok then
    let nvs := nvs.write bootId
    (answers.commit, if answers.commit = .ok ∨ answers.committed then nvs.commit else nvs)
  else (answers.set, if answers.wrote then nvs.write bootId else nvs)

/-- A boot id is given only once NVS has it for good. `dongleMac` is the build's `MAC_ADDR`. -/
def configureProtocolIdentity (dongleMac : Option Mac) (names : Names) (nvs : Durable UInt32)
    (answers : Answers) : Bool × Names × Durable UInt32 :=
  if names.sourceId ≠ 0 ∧ names.bootId ≠ 0 then (true, names, nvs)
  else
    let (ret, nvs) := openFlash nvs answers
    if ret ≠ .ok then (false, names, nvs)
    else match answers.mac with
      | none => (false, names, nvs)
      | some baseMac =>
        let sourceId := sourceIdFromMac baseMac
        if answers.opens ≠ .ok then (false, names, nvs)
        else
          let (ret, previousBootId) := lastBoot nvs answers
          if ret ≠ .ok ∧ ret ≠ .notFound then (false, names, nvs)
          else
            let bootId := nextBootId previousBootId
            let (ret, nvs) := keepBoot nvs bootId answers
            if ret ≠ .ok then (false, names, nvs)
            else (true, ⟨sourceId, bootId, List.ofFn baseMac ++ kUuidSuffix,
              (dongleMac.map sourceIdFromMac).getD names.dongleSourceId⟩, nvs)

/-! ### What one call does -/

private theorem sourceIdFromMac_ne_zero (mac : Mac) : sourceIdFromMac mac ≠ 0 := by
  simp only [sourceIdFromMac]
  split
  · decide
  · assumption

/-- The boot ids are the numbers from one to the largest, in turn. -/
theorem nextBootId_rolling {previous : UInt32} {turn : Nat}
    (at_ : previous.toNat = rolling (2 ^ 32 - 1) turn) :
    (nextBootId previous).toNat = rolling (2 ^ 32 - 1) (turn + 1) := by
  rw [rolling_succ (by decide), ← at_]
  unfold nextBootId
  by_cases last : previous = 0xFFFFFFFF
  · rw [if_pos last, last]
    rfl
  · have below : previous.toNat ≠ 2 ^ 32 - 1 := fun same => last (UInt32.toNat_inj.mp same)
    have bound := previous.toNat_lt
    rw [if_neg last, if_neg below, UInt32.toNat_add]
    simp only [UInt32.reduceToNat]
    omega

/-- NVS stays as it was found: no page ran out, and the version is the one it knows. -/
def Answers.Keeps (answers : Answers) : Prop :=
  answers.init ≠ .noFreePages ∧ answers.init ≠ .newVersionFound

instance (answers : Answers) : Decidable answers.Keeps := inferInstanceAs (Decidable (_ ∧ _))

/-- A number is there for good when the two calls answer that it is, and else it
may have been left out, written, or there for good all the same. -/
theorem keepBoot_cases (nvs : Durable UInt32) (bootId : UInt32) (answers : Answers) :
    (keepBoot nvs bootId answers = (.ok, (nvs.write bootId).commit)) ∨
    ∃ err after, keepBoot nvs bootId answers = (err, after) ∧ err ≠ .ok ∧
      (after = nvs ∨ after = nvs.write bootId ∨ after = (nvs.write bootId).commit) := by
  unfold keepBoot
  by_cases set : answers.set = .ok
  · by_cases commit : answers.commit = .ok
    · exact .inl (by simp [set, commit])
    · refine .inr ⟨answers.commit, _, if_pos set, commit, ?_⟩
      split
      · exact .inr (.inr rfl)
      · exact .inr (.inl rfl)
  · refine .inr ⟨answers.set, _, if_neg set, set, ?_⟩
    split
    · exact .inr (.inl rfl)
    · exact .inl rfl

private theorem openFlash_keeps {answers : Answers} (keeps : answers.Keeps) (nvs : Durable UInt32) :
    openFlash nvs answers = (answers.init, nvs) :=
  if_neg fun worn => worn.elim keeps.1 keeps.2

/-- Where the read goes through, the number it gives is the one that is there, or zero. -/
theorem lastBoot_read {nvs : Durable UInt32} {answers : Answers}
    (read : ¬ ((lastBoot nvs answers).1 ≠ .ok ∧ (lastBoot nvs answers).1 ≠ .notFound)) :
    (lastBoot nvs answers).2 = nvs.written.getD 0 := by
  obtain ⟨stored, written⟩ := nvs
  unfold lastBoot at read ⊢
  cases get : answers.get with
  | some code => simp [get] at read
  | none => cases written <;> rfl

/-- What a call can do where NVS is not erased: nothing; a write, and no identity; or
the next boot id, committed, and an identity with it. -/
theorem configure_cases {dongleMac : Option Mac} {names : Names} {nvs : Durable UInt32}
    {answers : Answers} (keeps : answers.Keeps) :
    ((configureProtocolIdentity dongleMac names nvs answers).2 = (names, nvs)) ∨
    (names.sourceId = 0 ∨ names.bootId = 0) ∧
      let bootId := nextBootId (nvs.written.getD 0)
      (∃ after, configureProtocolIdentity dongleMac names nvs answers = (false, names, after) ∧
        (after = nvs.write bootId ∨ after = (nvs.write bootId).commit)) ∨
      ∃ given, configureProtocolIdentity dongleMac names nvs answers =
          (true, given, (nvs.write bootId).commit) ∧
        given.sourceId ≠ 0 ∧ given.bootId = bootId := by
  simp only [configureProtocolIdentity, openFlash_keeps keeps]
  by_cases named : names.sourceId ≠ 0 ∧ names.bootId ≠ 0
  · exact .inl (by rw [if_pos named])
  rw [if_neg named]
  by_cases opened : answers.init ≠ .ok
  · exact .inl (by rw [if_pos opened])
  rw [if_neg opened]
  cases mac : answers.mac with
  | none => exact .inl rfl
  | some baseMac =>
    dsimp only
    by_cases opens : answers.opens ≠ .ok
    · exact .inl (by rw [if_pos opens])
    rw [if_neg opens]
    by_cases read : (lastBoot nvs answers).1 ≠ .ok ∧ (lastBoot nvs answers).1 ≠ .notFound
    · exact .inl (by rw [if_pos read])
    have unnamed : names.sourceId = 0 ∨ names.bootId = 0 := by
      by_cases source : names.sourceId = 0
      · exact .inl source
      · exact .inr (by_contra fun boot => named ⟨source, boot⟩)
    rw [if_neg read, lastBoot_read read]
    obtain kept | ⟨err, after, kept, failed, left⟩ :=
      keepBoot_cases nvs (nextBootId (nvs.written.getD 0)) answers
    · rw [kept]
      exact .inr ⟨unnamed, .inr ⟨_, rfl, sourceIdFromMac_ne_zero baseMac, rfl⟩⟩
    · rw [kept]
      dsimp only
      rw [if_pos failed]
      obtain rfl | written := left
      · exact .inl rfl
      · exact .inr ⟨unnamed, .inl ⟨after, rfl, written⟩⟩

end BallyOS.Boot
