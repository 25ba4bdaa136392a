import Solvency.Deployment.Basic

/-!
Presets: the deployments that are known by name. All of them are priced by the same four oracles, three of which have
to agree.
-/

namespace Solvency

def presetFeed : PriceFeed where
  oracles :=
    [⟨0, "0xd3a8c0b9fd44fd25a49289c631e3ac45689281f2f8cf0744400b4c65bed38e5d"⟩,
     ⟨1, "0x2c21cabdaa89739de16bde7bc44e86401fac334a3c7e55305fe5e7563043e191"⟩,
     ⟨2, "0x2eb258ce7b5d02466ab8a178ad8b0ba6ffa7b58ef21de3dc3b6dd359a1e16af0"⟩,
     ⟨3, "0xf9a0769954b4430bca95149fb3d876deb7799d8f74852e0ad4ccc5778ce68b52"⟩]
  minimalOracles := 3

namespace Deployment

def mainnet : Deployment where
  masterAddress := "EQC8rUZqR_pWV1BylWUlPNBzyiTYVoBEmQkMIQDZXICfnuRr"
  masterVersion := 6
  feed := presetFeed
  assets := [⟨"TON", 9⟩, ⟨"USDT", 6⟩, ⟨"jUSDT", 6⟩, ⟨"jUSDC", 6⟩, ⟨"stTON", 9⟩, ⟨"tsTON", 9⟩]

def testnet : Deployment where
  masterAddress := "EQDLsg3w-iBj26Gww7neYoJAxiT2t77Zo8ro56b0yuHsPp3C"
  masterVersion := 1
  feed := presetFeed
  assets := [⟨"TON", 9⟩, ⟨"jUSDT", 6⟩, ⟨"jUSDC", 6⟩, ⟨"stTON", 9⟩]

/-- The deployment for shares in liquidity pools. -/
def lp : Deployment where
  masterAddress := "EQBIlZX2URWkXCSg3QF2MJZU-wC5XkBoLww-hdWk2G37Jc6N"
  masterVersion := 3
  feed := presetFeed
  assets := [⟨"TON", 9⟩, ⟨"USDT", 6⟩, ⟨"TON_STORM", 9⟩, ⟨"USDT_STORM", 9⟩, ⟨"TONUSDT_DEDUST", 9⟩]

/-- The presets under their names. -/
def presets : List (Text × Deployment) := [("mainnet", mainnet), ("testnet", testnet), ("lp", lp)]

def preset? (name : Text) : Option Deployment := (presets.find? fun preset => preset.1 = name).map Prod.snd

end Deployment

end Solvency
