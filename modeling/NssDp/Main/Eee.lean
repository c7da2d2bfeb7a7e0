import NssDp.Misc.LowBits

/-!
# Energy efficient Ethernet

`nss_dp_get_eee` and `nss_dp_set_eee` (`nss_dp_ethtools.c`) translate between the link modes of
ethtool and those of the FAL. The FAL is not part of the driver: its link modes, and the calls
that set and get the configuration of a port, are parameters.
-/

namespace NssDp.Eee

open LowBits

/-- `struct ethtool_eee`. -/
structure EthtoolEee where
  supported : BitVec 32
  advertised : BitVec 32
  lpAdvertised : BitVec 32
  eeeActive : BitVec 32
  eeeEnabled : BitVec 32
  txLpiEnabled : BitVec 32
  txLpiTimer : BitVec 32
  deriving DecidableEq, Repr

/-- The zero-filled structure. -/
def EthtoolEee.zero : EthtoolEee := ⟨0, 0, 0, 0, 0, 0, 0⟩

/-- A `fal_port_eee_cfg_t`, as far as the driver uses it. -/
structure FalPortEeeCfg where
  enable : BitVec 32
  capability : BitVec 32
  advertisement : BitVec 32
  linkPartnerAdvertisement : BitVec 32
  eeeStatus : BitVec 32
  lpiTxEnable : BitVec 32
  lpiSleepTimer : BitVec 32
  deriving DecidableEq, Repr

/-- The zero-filled structure. -/
def FalPortEeeCfg.zero : FalPortEeeCfg := ⟨0, 0, 0, 0, 0, 0, 0⟩

/-- The link modes of the FAL (`FAL_PHY_EEE_10BASE_T` to `FAL_PHY_EEE_10000BASE_T`). -/
structure FalPhyEee where
  base10T : BitVec 32
  base100T : BitVec 32
  base1000T : BitVec 32
  base2500T : BitVec 32
  base5000T : BitVec 32
  base10000T : BitVec 32

/-- `fal_port_interface_eee_cfg_get` and `fal_port_interface_eee_cfg_set`, on the state of the FAL
    and the number of a port; `cfgGet` gives nothing and `cfgSet` false where they fail. -/
structure FalEee (σ : Type) where
  cfgGet : σ → Nat → Option FalPortEeeCfg
  cfgSet : σ → Nat → FalPortEeeCfg → Bool × σ

/-- `SUPPORTED_10baseT_Full` and `ADVERTISED_10baseT_Full`, and so on. -/
def full10baseT : BitVec 32 := 1#32 <<< 1

def full100baseT : BitVec 32 := 1#32 <<< 3

def full1000baseT : BitVec 32 := 1#32 <<< 5

def full2500baseX : BitVec 32 := 1#32 <<< 15

def full10000baseT : BitVec 32 := 1#32 <<< 12

/-- `-EIO`. -/
def eIo : Int := -5

/-- What `nss_dp_fal_to_ethtool_linkmode_xlate` adds for one bit; there is no mode for 5G. -/
def falToEthtool (k : FalPhyEee) (bit : BitVec 32) : BitVec 32 :=
  if bit = k.base10T then full10baseT
  else if bit = k.base100T then full100baseT
  else if bit = k.base1000T then full1000baseT
  else if bit = k.base2500T then full2500baseX
  else if bit = k.base5000T then 0
  else if bit = k.base10000T then full10000baseT
  else 0

/-- `nss_dp_fal_to_ethtool_linkmode_xlate` (`nss_dp_ethtools.c:183-217`): what it leaves in
    `*xlate_to`, or nothing where the loop goes on beyond the width of a word. -/
def nssDpFalToEthtoolLinkmodeXlate (k : FalPhyEee) (xlateTo xlateFrom : BitVec 32) :
    Option (BitVec 32) :=
  let body (modes : BitVec 32) (pos : Nat) : Except Empty (BitVec 32) :=
    .ok (modes ||| falToEthtool k (1#32 <<< pos))
  (loop body 33 xlateFrom xlateTo).bind fun r => r.2.toOption

/-- `nss_dp_get_eee` (`nss_dp_ethtools.c:223-252`): what it returns and leaves in `eee`. -/
def nssDpGetEee {σ : Type} (k : FalPhyEee) (fal : FalEee σ) (s : σ) (macid : Nat)
    (eee : EthtoolEee) : Option (Int × EthtoolEee) :=
  match fal.cfgGet s macid with
  | none => some (eIo, eee)
  | some cfg =>
    (nssDpFalToEthtoolLinkmodeXlate k eee.supported cfg.capability).bind fun supported =>
    (nssDpFalToEthtoolLinkmodeXlate k eee.advertised cfg.advertisement).bind fun advertised =>
    (nssDpFalToEthtoolLinkmodeXlate k eee.lpAdvertised cfg.linkPartnerAdvertisement).map
      fun lpAdvertised => (0, {
        supported
        advertised
        lpAdvertised
        eeeEnabled := cfg.enable
        eeeActive := cfg.eeeStatus
        txLpiEnabled := cfg.lpiTxEnable
        txLpiTimer := cfg.lpiSleepTimer })

/-- The cases of the switch in `nss_dp_set_eee`. -/
def ethtoolToFal (k : FalPhyEee) (bit : BitVec 32) : Option (BitVec 32) :=
  if bit = full10baseT then some k.base10T
  else if bit = full100baseT then some k.base100T
  else if bit = full1000baseT then some k.base1000T
  else if bit = full2500baseX then some k.base2500T
  else if bit = full10000baseT then some k.base10000T
  else none

/-- A turn of the loop in `nss_dp_set_eee` (`nss_dp_ethtools.c:285-333`), which returns early at a
    mode that the port does not have. -/
def setEeeTurn (k : FalPhyEee) (capability advertisement : BitVec 32) (pos : Nat) :
    Except Int (BitVec 32) :=
  match ethtoolToFal k (1#32 <<< pos) with
  | some mode => if capability &&& mode ≠ 0 then .ok (advertisement ||| mode) else .error eIo
  | none => .error eIo

/-- The configuration that `nss_dp_set_eee` asks for (`nss_dp_ethtools.c:278,337-338`). -/
def EthtoolEee.toCfg (eee : EthtoolEee) (advertisement : BitVec 32) : FalPortEeeCfg :=
  { FalPortEeeCfg.zero with
    enable := eee.eeeEnabled
    advertisement
    lpiTxEnable := eee.txLpiEnabled
    lpiSleepTimer := eee.txLpiTimer }

/-- What `nss_dp_set_eee` returns and leaves: `written` is the configuration it has given to the
    FAL, if any. -/
structure SetEee (σ : Type) where
  ret : Int
  eee : EthtoolEee
  written : Option FalPortEeeCfg
  fal : σ

/-- `nss_dp_set_eee` (`nss_dp_ethtools.c:258-348`). -/
def nssDpSetEee {σ : Type} (k : FalPhyEee) (fal : FalEee σ) (s : σ) (macid : Nat)
    (eee : EthtoolEee) : Option (SetEee σ) :=
  match fal.cfgGet s macid with
  | none => some ⟨eIo, eee, none, s⟩
  | some cur =>
    (loop (setEeeTurn k cur.capability) 33 eee.advertised 0).map fun r =>
      let eee := { eee with advertised := r.1 }
      match r.2 with
      | .error err => ⟨err, eee, none, s⟩
      | .ok advertisement =>
        let cfg := eee.toCfg advertisement
        let r := fal.cfgSet s macid cfg
        ⟨if r.1 then 0 else eIo, eee, some cfg, r.2⟩

end NssDp.Eee
