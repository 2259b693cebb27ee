/-!
# The models that come with the program

A model of intents and a small model of moods, both weighted by hand.
-/
namespace Scribe.Shipped

def intentModel : String :=
  "\n".intercalate [
    "\x7b",
    "  \"name\": \"intent_macro\",",
    "  \"description\": \"Hand-weighted bag-of-words macro intent model. Columns follow `labels`.\",",
    "  \"labels\": [\"Loop\", \"Branch\", \"Arith\", \"Concat\", \"RoleFlag\", \"AIBridge\", \"DocPrint\", \"SetVar\", \"Unknown\"],",
    "  \"bias\":   [0.0, 0.0, 0.0, 0.0, 0.0, 0.0, 0.0, 0.0, 0.6],",
    "  \"weights\": \x7b",
    "    \"times\":       [3.0, 0.0, 0.4, 0.0, 0.0, 0.0, 0.0, 0.0, 0.0],",
    "    \"time\":        [2.0, 0.0, 0.0, 0.0, 0.0, 0.0, 0.0, 0.0, 0.0],",
    "    \"repeat\":      [2.5, 0.0, 0.0, 0.0, 0.0, 0.0, 0.0, 0.0, 0.0],",
    "    \"loop\":        [2.5, 0.0, 0.0, 0.0, 0.0, 0.0, 0.0, 0.0, 0.0],",
    "    \"twice\":       [2.5, 0.0, 0.0, 0.0, 0.0, 0.0, 0.0, 0.0, 0.0],",
    "    \"thrice\":      [2.5, 0.0, 0.0, 0.0, 0.0, 0.0, 0.0, 0.0, 0.0],",
    "    \"once\":        [1.5, 0.0, 0.0, 0.0, 0.0, 0.0, 0.0, 0.0, 0.0],",
    "    \"if\":          [0.0, 3.0, 0.0, 0.0, 0.0, 0.0, 0.0, 0.0, 0.0],",
    "    \"elif\":        [0.0, 2.5, 0.0, 0.0, 0.0, 0.0, 0.0, 0.0, 0.0],",
    "    \"else\":        [0.0, 2.5, 0.0, 0.0, 0.0, 0.0, 0.0, 0.0, 0.0],",
    "    \"otherwise\":   [0.0, 2.0, 0.0, 0.0, 0.0, 0.0, 0.0, 0.0, 0.0],",
    "    \"when\":        [0.0, 1.5, 0.0, 0.0, 0.0, 0.0, 0.0, 0.0, 0.0],",
    "    \">=\":          [0.0, 1.0, 0.0, 0.0, 0.0, 0.0, 0.0, 0.0, 0.0],",
    "    \"<=\":          [0.0, 1.0, 0.0, 0.0, 0.0, 0.0, 0.0, 0.0, 0.0],",
    "    \"==\":          [0.0, 1.0, 0.0, 0.0, 0.0, 0.0, 0.0, 0.0, 0.0],",
    "    \"calculate\":   [0.0, 0.0, 3.0, 0.0, 0.0, 0.0, 0.0, 0.0, 0.0],",
    "    \"compute\":     [0.0, 0.0, 3.0, 0.0, 0.0, 0.0, 0.0, 0.0, 0.0],",
    "    \"add\":         [0.0, 0.0, 2.0, 0.0, 0.0, 0.0, 0.3, 0.0, 0.0],",
    "    \"subtract\":    [0.0, 0.0, 3.0, 0.0, 0.0, 0.0, 0.0, 0.0, 0.0],",
    "    \"multiply\":    [0.0, 0.0, 3.0, 0.0, 0.0, 0.0, 0.0, 0.0, 0.0],",
    "    \"divide\":      [0.0, 0.0, 3.0, 0.0, 0.0, 0.0, 0.0, 0.0, 0.0],",
    "    \"sum\":         [0.0, 0.0, 2.0, 0.0, 0.0, 0.0, 0.0, 0.0, 0.0],",
    "    \"plus\":        [0.0, 0.0, 2.0, 0.0, 0.0, 0.0, 0.0, 0.0, 0.0],",
    "    \"minus\":       [0.0, 0.0, 2.0, 0.0, 0.0, 0.0, 0.0, 0.0, 0.0],",
    "    \"*\":           [0.0, 0.0, 1.5, 0.0, 0.0, 0.0, 0.0, 0.0, 0.0],",
    "    \"/\":           [0.0, 0.0, 1.5, 0.0, 0.0, 0.0, 0.0, 0.0, 0.0],",
    "    \"-\":           [0.0, 0.0, 1.0, 0.0, 0.0, 0.0, 0.0, 0.0, 0.0],",
    "    \"+\":           [0.0, 0.0, 1.0, 1.0, 0.0, 0.0, 0.0, 0.0, 0.0],",
    "    \"concatenate\": [0.0, 0.0, 0.0, 3.0, 0.0, 0.0, 0.0, 0.0, 0.0],",
    "    \"concat\":      [0.0, 0.0, 0.0, 3.0, 0.0, 0.0, 0.0, 0.0, 0.0],",
    "    \"combine\":     [0.0, 0.0, 0.0, 2.5, 0.0, 0.0, 0.0, 0.0, 0.0],",
    "    \"join\":        [0.0, 0.0, 0.0, 2.5, 0.0, 0.0, 0.0, 0.0, 0.0],",
    "    \"role\":        [0.0, 0.0, 0.0, 0.0, 3.0, 0.0, 0.0, 0.0, 0.0],",
    "    \"promote\":     [0.0, 0.0, 0.0, 0.0, 3.0, 0.0, 0.0, 0.0, 0.0],",
    "    \"demote\":      [0.0, 0.0, 0.0, 0.0, 3.0, 0.0, 0.0, 0.0, 0.0],",
    "    \"admin\":       [0.0, 0.0, 0.0, 0.0, 1.5, 0.0, 0.0, 0.0, 0.0],",
    "    \"moderator\":   [0.0, 0.0, 0.0, 0.0, 1.5, 0.0, 0.0, 0.0, 0.0],",
    "    \"bridge\":      [0.0, 0.0, 0.0, 0.0, 0.0, 3.0, 0.0, 0.0, 0.0],",
    "    \"forward\":     [0.0, 0.0, 0.0, 0.0, 0.0, 2.5, 0.0, 0.0, 0.0],",
    "    \"relay\":       [0.0, 0.0, 0.0, 0.0, 0.0, 2.5, 0.0, 0.0, 0.0],",
    "    \"assistant\":   [0.0, 0.0, 0.0, 0.0, 0.0, 1.5, 0.0, 0.0, 0.0],",
    "    \"model\":       [0.0, 0.0, 0.0, 0.0, 0.0, 1.0, 0.0, 0.0, 0.0],",
    "    \"comment\":     [0.0, 0.0, 0.0, 0.0, 0.0, 0.0, 3.0, 0.0, 0.0],",
    "    \"#\":           [0.0, 0.0, 0.0, 0.0, 0.0, 0.0, 1.5, 0.0, 0.0],",
    "    \"//\":          [0.0, 0.0, 0.0, 0.0, 0.0, 0.0, 1.5, 0.0, 0.0],",
    "    \"print\":       [0.3, 0.0, 0.0, 0.3, 0.0, 0.0, 1.5, 0.0, 0.0],",
    "    \"say\":         [0.3, 0.3, 0.0, 0.0, 0.0, 0.0, 1.2, 0.0, 0.0],",
    "    \"display\":     [0.0, 0.0, 0.0, 0.0, 0.0, 0.0, 1.2, 0.0, 0.0],",
    "    \"format\":      [0.0, 0.0, 0.0, 0.0, 0.0, 0.0, 1.5, 0.0, 0.0],",
    "    \"show\":        [0.8, 0.0, 0.0, 0.0, 0.0, 0.0, 0.6, 0.0, 0.0],",
    "    \"set\":         [0.0, 0.0, 0.3, 0.0, 0.4, 0.0, 0.0, 2.0, 0.0],",
    "    \"store\":       [0.0, 0.0, 0.3, 0.0, 0.0, 0.0, 0.0, 2.0, 0.0],",
    "    \"create\":      [0.0, 0.0, 0.3, 0.0, 0.0, 0.0, 0.0, 1.5, 0.0],",
    "    \"variable\":    [0.0, 0.0, 0.0, 0.0, 0.0, 0.0, 0.0, 1.5, 0.0],",
    "    \"=\":           [0.0, 0.0, 0.3, 0.0, 0.0, 0.0, 0.0, 1.0, 0.0],",
    "    \"joke\":        [0.0, 0.0, 0.0, 0.0, 0.0, 0.0, 0.0, 0.0, 2.0],",
    "    \"weather\":     [0.0, 0.0, 0.0, 0.0, 0.0, 0.0, 0.0, 0.0, 2.0],",
    "    \"tell\":        [0.0, 0.0, 0.0, 0.0, 0.0, 0.0, 0.0, 0.0, 1.0]",
    "  \x7d",
    "\x7d",
    ""]

def intentModelPath : String := "models/intent_macro/model.json"

def moodModel : String :=
  "\n".intercalate [
    "\x7b",
    "  \"name\": \"sst2\",",
    "  \"description\": \"Tiny hand-weighted sentiment model (SST-2 label set).\",",
    "  \"labels\": [\"Positive\", \"Negative\"],",
    "  \"bias\": [0.1, 0.0],",
    "  \"weights\": \x7b",
    "    \"amazing\":   [2.5, -1.0],",
    "    \"great\":     [2.0, -1.0],",
    "    \"good\":      [1.5, -0.5],",
    "    \"love\":      [2.0, -1.0],",
    "    \"excellent\": [2.5, -1.0],",
    "    \"happy\":     [1.5, -0.5],",
    "    \"wonderful\": [2.0, -1.0],",
    "    \"nice\":      [1.0, -0.3],",
    "    \"bad\":       [-1.0, 2.0],",
    "    \"terrible\":  [-1.0, 2.5],",
    "    \"awful\":     [-1.0, 2.5],",
    "    \"hate\":      [-1.0, 2.0],",
    "    \"boring\":    [-0.5, 1.5],",
    "    \"sad\":       [-0.5, 1.5],",
    "    \"worst\":     [-1.0, 2.5],",
    "    \"not\":       [-0.8, 0.8]",
    "  \x7d",
    "\x7d",
    ""]

def moodModelPath : String := "models/sst2/model.json"

end Scribe.Shipped
