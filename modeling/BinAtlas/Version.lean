/-! The version of the library. -/

namespace BinAtlas

def version : String := "0.1.0"

end BinAtlas
