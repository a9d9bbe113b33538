import SourceTree.Library

/-! The libraries that are known without being configured. -/

namespace SourceTree.Library

def openZeppelinAddress : String :=
  "https://raw.githubusercontent.com/OpenZeppelin/openzeppelin-contracts"

def chainlinkAddress : String :=
  "https://raw.githubusercontent.com/smartcontractkit/chainlink"

def uniswapAddress : String :=
  "https://raw.githubusercontent.com/Uniswap"

/-- From version 5.0 on, the constructor of `Ownable` takes the initial owner. A bare `Ownable()`
anywhere in the source rules that reading out. -/
def ownableWithOwner : String :=
  "\\A(?![\\s\\S]*\\bOwnable\\(\\))[\\s\\S]*?\\bOwnable\\(\\s*[^)\\s]"

def selectiveImport : String :=
  "\\bimport\\s*\\\x7b"

def openZeppelin : Library where
  root := "@openzeppelin/contracts"
  name := "OpenZeppelin"
  url := some "https://github.com/OpenZeppelin/openzeppelin-contracts"
  versions := [
    { name := "5.0"
      baseUrl := openZeppelinAddress ++ "/release-v5.0/contracts/"
      branch := some "release-v5.0"
      features := ["IERC6093", "AccessManager"]
      patterns := [ownableWithOwner, selectiveImport] },
    { name := "4.9"
      baseUrl := openZeppelinAddress ++ "/release-v4.9/contracts/"
      branch := some "release-v4.9"
      features := ["Ownable()"]
      patterns := [] },
    { name := "4.7"
      baseUrl := openZeppelinAddress ++ "/release-v4.7/contracts/"
      branch := some "release-v4.7"
      features := ["Ownable()"]
      patterns := [] }]
  defaultName := "5.0"
  qualifiers := .ofList [("@openzeppelin/contracts/?(?:/v5|@5|@v5|@~5)", "5.0")]
  spareUrls := .ofList [
    ("interfaces/draft-IERC6093.sol",
      openZeppelinAddress ++ "/release-v5.0/contracts/interfaces/draft-IERC6093.sol")]
  namesDistinct := by decide
  defaultListed := by decide
  qualifiedListed := by decide

def chainlink : Library where
  root := "@chainlink/contracts"
  name := "Chainlink"
  url := some "https://github.com/smartcontractkit/chainlink"
  versions := [
    { name := "latest"
      baseUrl := chainlinkAddress ++ "/develop/contracts/"
      branch := some "develop"
      features := []
      patterns := [] },
    { name := "v2.0.0"
      baseUrl := chainlinkAddress ++ "/v2.0.0/contracts/"
      branch := some "v2.0.0"
      features := []
      patterns := [] }]
  defaultName := "latest"
  qualifiers := .ofList [("@chainlink/contracts/?(?:/v2|@2|@v2)", "v2.0.0")]
  spareUrls := .empty
  namesDistinct := by decide
  defaultListed := by decide
  qualifiedListed := by decide

def uniswapThree : Library where
  root := "@uniswap/v3-core"
  name := "Uniswap V3"
  url := some "https://github.com/Uniswap/v3-core"
  versions := [
    { name := "latest"
      baseUrl := uniswapAddress ++ "/v3-core/main/contracts/"
      branch := some "main"
      features := []
      patterns := [] }]
  defaultName := "latest"
  qualifiers := .empty
  spareUrls := .empty
  namesDistinct := by decide
  defaultListed := by decide
  qualifiedListed := by decide

def uniswapFour : Library where
  root := "@uniswap/v4-core"
  name := "Uniswap V4"
  url := some "https://github.com/Uniswap/v4-core"
  versions := [
    { name := "latest"
      baseUrl := uniswapAddress ++ "/v4-core/main/"
      branch := some "main"
      features := []
      patterns := [] }]
  defaultName := "latest"
  qualifiers := .empty
  spareUrls := .empty
  namesDistinct := by decide
  defaultListed := by decide
  qualifiedListed := by decide

def catalog : List Library :=
  [openZeppelin, chainlink, uniswapThree, uniswapFour]

end SourceTree.Library
