import Recurrence.Zone

namespace Recurrence.Zone

/-! Zones of Africa.

The changes of a history are listed from the latest to the earliest, in Unix seconds.  The phase of
the first one holds for all later times.
-/

namespace Cairo

def localMean : Phase := ⟨7500, 0⟩

def standard : Phase := ⟨7200, 0⟩

def summer : Phase := ⟨10800, 3600⟩

def history : History where
  name := "Africa/Cairo"
  initial := localMean
  shifts := [
    ⟨2140462800, standard⟩, ⟨2124136800, summer⟩, ⟨2109013200, standard⟩, ⟨2092687200, summer⟩,
    ⟨2076958800, standard⟩, ⟨2061237600, summer⟩, ⟨2045509200, standard⟩, ⟨2029788000, summer⟩,
    ⟨2014059600, standard⟩, ⟨1998338400, summer⟩, ⟨1982610000, standard⟩, ⟨1966888800, summer⟩,
    ⟨1951160400, standard⟩, ⟨1934834400, summer⟩, ⟨1919710800, standard⟩, ⟨1903384800, summer⟩,
    ⟨1887656400, standard⟩, ⟨1871935200, summer⟩, ⟨1856206800, standard⟩, ⟨1840485600, summer⟩,
    ⟨1824757200, standard⟩, ⟨1809036000, summer⟩, ⟨1793307600, standard⟩, ⟨1776981600, summer⟩,
    ⟨1761858000, standard⟩, ⟨1745532000, summer⟩, ⟨1730408400, standard⟩, ⟨1714082400, summer⟩,
    ⟨1698354000, standard⟩, ⟨1682632800, summer⟩, ⟨1411678800, standard⟩, ⟨1406844000, summer⟩,
    ⟨1403816400, standard⟩, ⟨1400191200, summer⟩, ⟨1285880400, standard⟩, ⟨1284069600, summer⟩,
    ⟨1281474000, standard⟩, ⟨1272578400, summer⟩, ⟨1250802000, standard⟩, ⟨1240524000, summer⟩,
    ⟨1219957200, standard⟩, ⟨1209074400, summer⟩, ⟨1189112400, standard⟩, ⟨1177624800, summer⟩,
    ⟨1158872400, standard⟩, ⟨1146175200, summer⟩, ⟨1128027600, standard⟩, ⟨1114725600, summer⟩,
    ⟨1096578000, standard⟩, ⟨1083276000, summer⟩, ⟨1064523600, standard⟩, ⟨1051221600, summer⟩,
    ⟨1033074000, standard⟩, ⟨1019772000, summer⟩, ⟨1001624400, standard⟩, ⟨988322400, summer⟩,
    ⟨970174800, standard⟩, ⟨956872800, summer⟩, ⟨938725200, standard⟩, ⟨925423200, summer⟩,
    ⟨906670800, standard⟩, ⟨893368800, summer⟩, ⟨875221200, standard⟩, ⟨861919200, summer⟩,
    ⟨843771600, standard⟩, ⟨830469600, summer⟩, ⟨812322000, standard⟩, ⟨799020000, summer⟩,
    ⟨780969600, standard⟩, ⟨767746800, summer⟩, ⟨749433600, standard⟩, ⟨736210800, summer⟩,
    ⟨717897600, standard⟩, ⟨704674800, summer⟩, ⟨686275200, standard⟩, ⟨673052400, summer⟩,
    ⟨654739200, standard⟩, ⟨641516400, summer⟩, ⟨623203200, standard⟩, ⟨610412400, summer⟩,
    ⟨591667200, standard⟩, ⟨578444400, summer⟩, ⟨560044800, standard⟩, ⟨546822000, summer⟩,
    ⟨528508800, standard⟩, ⟨515286000, summer⟩, ⟨496972800, standard⟩, ⟨483750000, summer⟩,
    ⟨465436800, standard⟩, ⟨452214000, summer⟩, ⟨433814400, standard⟩, ⟨426812400, summer⟩,
    ⟨402278400, standard⟩, ⟨396399600, summer⟩, ⟨370742400, standard⟩, ⟨357519600, summer⟩,
    ⟨339206400, standard⟩, ⟨325983600, summer⟩, ⟨307584000, standard⟩, ⟨294361200, summer⟩,
    ⟨276048000, standard⟩, ⟨262825200, summer⟩, ⟨244512000, standard⟩, ⟨231289200, summer⟩,
    ⟨212976000, standard⟩, ⟨199753200, summer⟩, ⟨181353600, standard⟩, ⟨168130800, summer⟩,
    ⟨149817600, standard⟩, ⟨136594800, summer⟩, ⟨118281600, standard⟩, ⟨105058800, summer⟩,
    ⟨86745600, standard⟩, ⟨73522800, summer⟩, ⟨55123200, standard⟩, ⟨41900400, summer⟩,
    ⟨23587200, standard⟩, ⟨10364400, summer⟩, ⟨-7948800, standard⟩, ⟨-21171600, summer⟩,
    ⟨-39484800, standard⟩, ⟨-52707600, summer⟩, ⟨-71107200, standard⟩, ⟨-84330000, summer⟩,
    ⟨-102643200, standard⟩, ⟨-115866000, summer⟩, ⟨-134265600, standard⟩, ⟨-147402000, summer⟩,
    ⟨-165801600, standard⟩, ⟨-178938000, summer⟩, ⟨-197424000, standard⟩, ⟨-210560400, summer⟩,
    ⟨-228960000, standard⟩, ⟨-242096400, summer⟩, ⟨-260496000, standard⟩, ⟨-273632400, summer⟩,
    ⟨-292032000, standard⟩, ⟨-305168400, summer⟩, ⟨-323654400, standard⟩, ⟨-336790800, summer⟩,
    ⟨-355114800, standard⟩, ⟨-368330400, summer⟩, ⟨-386650800, standard⟩, ⟨-399088800, summer⟩,
    ⟨-762663600, standard⟩, ⟨-779853600, summer⟩, ⟨-794199600, standard⟩, ⟨-812685600, summer⟩,
    ⟨-825822000, standard⟩, ⟨-844308000, summer⟩, ⟨-857790000, standard⟩, ⟨-875844000, summer⟩,
    ⟨-892868400, standard⟩, ⟨-906170400, summer⟩, ⟨-923108400, standard⟩, ⟨-929844000, summer⟩,
    ⟨-2147483648, standard⟩]

end Cairo

end Recurrence.Zone
